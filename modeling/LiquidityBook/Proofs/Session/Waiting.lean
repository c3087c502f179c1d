import LiquidityBook.Proofs.Session.Quiet

/-! Requests that wait for another. A request that joins a leader stays bound to it and takes over whatever comes of
it, and no request is left waiting for one that has ended. -/
namespace LiquidityBook.Session
variable {u : Setup} {s s' : Session} {e : Event} {o : Observation} {id leader : Nat} {slot : KeySlot}

/-- With its first poll the request joined this leader: its token is registered, its slot had no key yet, and the
leader had claimed the slot. -/
def Joined (u : Setup) (es : List Event) (id : Nat) (slot : KeySlot) (leader : Nat) : Prop :=
  ∃ p q, es = p ++ .poll id :: q ∧ (after u p).tasks[id]? = some ⟨slot, .fresh⟩ ∧
    (∃ token, u.registry.get slot.token = .ok token) ∧ (after u p).keys.find? slot = none ∧
    (after u p).Leads leader slot

/-- A waiter has waited for its leader before, or it has just joined the one that is entered for its slot. -/
theorem Transition.waiting_cases (h : Transition u s e s' o)
    (hw : s'.tasks[id]? = some ⟨slot, .waiting leader⟩) :
    s.tasks[id]? = some ⟨slot, .waiting leader⟩ ∨
      (e = .poll id ∧ s.tasks[id]? = some ⟨slot, .fresh⟩ ∧ (∃ token, u.registry.get slot.token = .ok token) ∧
        s.keys.find? slot = none ∧ s.inFlight.find? slot = some leader) := by
  rcases h.task_cases id with hk | ⟨_, _, _, hk⟩ | ⟨_, _, _, hs, hk, ha⟩
  · exact .inl (hk ▸ hw)
  · cases hw.symm.trans hk
  · cases hw.symm.trans hk
    cases ha with
    | join _ =>
      cases h with
      | idle _ => exact .inl hw
      | resolve ht _ => cases hw.symm.trans (tasks_setStatus_self ht)
      | join ht hr hn hf =>
        cases hs.symm.trans ht
        cases hw.symm.trans (tasks_setStatus_self ht)
        exact .inr ⟨rfl, hs, ⟨_, hr⟩, hn, hf⟩
      | lead ht _ _ _ => cases hw.symm.trans (tasks_setStatus_self ht)
      | close ht _ => cases hw.symm.trans (tasks_setStatus_self ht)

theorem joined_of_waiting {es : List Event} (h : (after u es).tasks[id]? = some ⟨slot, .waiting leader⟩) :
    Joined u es id slot leader := by
  induction es using List.reverseRecOn with
  | nil => cases h
  | append_singleton es e ih =>
    rw [after_concat] at h
    apply exists_split_concat.2
    rcases (step_transition u (after u es) e).waiting_cases h with h | ⟨rfl, ht, hr, hk, hf⟩
    · exact .inl (ih h)
    · exact .inr ⟨rfl, ht, hr, hk, (singleFlight_after u es slot leader).1 hf⟩

/-- Where a request stands that waits for a leader or has waited for it: it waits still, it was dropped, or it came
to what its leader came to. -/
inductive Follows (s : Session) (id : Nat) (slot : KeySlot) (leader : Nat) : Prop where
  | waiting (ht : s.tasks[id]? = some ⟨slot, .waiting leader⟩)
  | dropped (hd : s.statusOf? id = some .dropped)
  | shared {result} (hf : s.statusOf? id = some (.finished result))
      (hl : s.statusOf? leader = some (.finished result))
  | abandoned (hf : s.statusOf? id = some (.finished (.error (.requestAbandoned slot.token))))
      (hl : s.statusOf? leader = some .dropped)

theorem Transition.follows (ht : Transition u s e s' o) (h : Follows s id slot leader) :
    Follows s' id slot leader := by
  cases h with
  | waiting hw =>
    rcases ht.task_cases id with hk | ⟨hn, _⟩ | ⟨_, _, _, hk, hk', ha⟩
    · exact .waiting (hk.trans hw)
    · cases hw.symm.trans hn
    · cases hw.symm.trans hk
      have hk' := statusOf?_eq_some_iff.2 ⟨_, hk'⟩
      cases ha with
      | resolve hr =>
        cases hr with
        | shared hl => exact .shared hk' (ht.statusOf?_of_ended hl rfl)
        | abandoned hl => exact .abandoned hk' (ht.statusOf?_of_ended hl rfl)
      | drop _ => exact .dropped hk'
  | dropped hd => exact .dropped (ht.statusOf?_of_ended hd rfl)
  | shared hf hl => exact .shared (ht.statusOf?_of_ended hf rfl) (ht.statusOf?_of_ended hl rfl)
  | abandoned hf hl => exact .abandoned (ht.statusOf?_of_ended hf rfl) (ht.statusOf?_of_ended hl rfl)

theorem follows_run (u : Setup) (es : List Event) (h : Follows s id slot leader) :
    Follows (run u s es).1 id slot leader :=
  run_induction (fun _ _ _ _ hf ht => ht.follows hf) h es

private theorem Joined.follows {es : List Event} (h : Joined u es id slot leader) :
    Follows (after u es) id slot leader := by
  obtain ⟨p, q, rfl, ht, ⟨token, hr⟩, hk, hl⟩ := h
  have hf : (after u p).inFlight.find? slot = some leader := (singleFlight_after u p slot leader).2 hl
  have hw : (after u (p ++ [.poll id])).tasks[id]? = some ⟨slot, .waiting leader⟩ := by
    rw [after_concat]
    simp only [step, poll, ht, firstPoll, hr, hk, hf]
    exact tasks_setStatus_self ht
  have hrun := follows_run u q (.waiting hw)
  rwa [after, ← run_append, List.append_assoc] at hrun

private theorem led_run {p : List Event} (hl : (after u p).Leads leader slot) (q : List Event) :
    (after u (p ++ q)).Leads leader slot ∨ (after u (p ++ q)).statusOf? leader = some .dropped ∨
      ∃ n outcome key, .settle n outcome ∈ p ++ q ∧
        (after u (p ++ q)).statusOf? leader =
          some (.finished ((outcome.bind TxResponse.check).map fun _ => key)) := by
  induction q using List.reverseRecOn with
  | nil => exact .inl (by simpa using hl)
  | append_singleton q e ih =>
    rw [← List.append_assoc, after_concat]
    have ht := step_transition u (after u (p ++ q)) e
    rcases ih with hl | hd | ⟨n, outcome, key, hm, hf⟩
    · have hs := hl
      obtain ⟨n, epoch, key, hs⟩ := hs
      rcases ht.task_cases leader with hk | ⟨hn, _⟩ | ⟨_, _, _, hk, hk', ha⟩
      · exact .inl ((leads_congr hk).2 hl)
      · cases hs.symm.trans hn
      · cases hs.symm.trans hk
        have hk' := statusOf?_eq_some_iff.2 ⟨_, hk'⟩
        cases ha with
        | resolve hr => cases hr
        | @close _ _ _ outcome ho =>
          rcases outcome_run ho with h0 | hm
          · cases h0
          · exact .inr (.inr ⟨n, outcome, key, List.mem_append_left _ hm, hk'⟩)
        | drop _ => exact .inr (.inl hk')
    · exact .inr (.inl (ht.statusOf?_of_ended hd rfl))
    · exact .inr (.inr ⟨n, outcome, key, List.mem_append_left _ hm, ht.statusOf?_of_ended hf rfl⟩)

/-- Whoever was joined leads, or it has come to a result or was given up. -/
theorem Joined.leader_cases {es : List Event} (h : Joined u es id slot leader) :
    (after u es).Leads leader slot ∨ GivenUp u es leader ∨
      ∃ n outcome key, .settle n outcome ∈ es ∧
        Returned u es leader ((outcome.bind TxResponse.check).map fun _ => key) := by
  obtain ⟨p, q, rfl, _, _, _, hl⟩ := h
  simpa only [dropped_iff_givenUp, finished_iff_returned] using led_run hl (.poll id :: q)

/-- Only the broadcaster itself makes a leader's result an abandonment. -/
private theorem outcome_of_abandoned {outcome : Except Error TxResponse} {key token : String}
    (h : ((outcome.bind TxResponse.check).map fun _ => key) = .error (.requestAbandoned token)) :
    outcome = .error (.requestAbandoned token) := by
  cases outcome with
  | error e =>
    cases h
    rfl
  | ok r =>
    simp only [Except.bind, TxResponse.check] at h
    split at h <;> cases h

theorem Leads.live {es : List Event} (h : (after u es).Leads id slot) :
    (∀ result, ¬ Returned u es id result) ∧ ¬ GivenUp u es id := by
  obtain ⟨n, epoch, key, ht⟩ := h
  have hs := statusOf?_eq_some_iff.2 ⟨_, ht⟩
  constructor
  · intro result hr
    cases hs.symm.trans (finished_iff_returned.2 hr)
  · intro hd
    cases hs.symm.trans (dropped_iff_givenUp.2 hd)

/-- What becomes of a request that joined a leader, as far as the run goes. -/
structure SharesOutcome (u : Setup) (es : List Event) (id : Nat) (slot : KeySlot) (leader : Nat) : Prop where
  /-- It waits for that leader until it ends, whoever leads the slot by then. -/
  bound : (after u es).tasks[id]? = some ⟨slot, .waiting leader⟩ ∨ (after u es).Ended id
  /-- Its leader is live, or was given up, or came to one result. -/
  source : (after u es).Leads leader slot ∨ GivenUp u es leader ∨ ∃ result, Returned u es leader result
  patient : (after u es).Leads leader slot → (∀ result, ¬ Returned u es id result) ∧
    ((after u es).Ended id ∨ step u (after u es) (.poll id) = (after u es, .nothing))
  takesOver : ∀ result, Returned u es id result →
    (Returned u es leader result ∧ ¬ GivenUp u es leader) ∨
      (GivenUp u es leader ∧ (∀ other, ¬ Returned u es leader other) ∧
        result = .error (.requestAbandoned slot.token))
  /-- Unless the broadcaster itself reports that a request was abandoned, the error tells that the leader was
  given up. -/
  abandoned_iff : (∀ n, .settle n (.error (.requestAbandoned slot.token)) ∉ es) → ∀ result, Returned u es id result →
    (result = .error (.requestAbandoned slot.token) ↔ GivenUp u es leader)
  prompt : ¬ (after u es).Ended id →
    (∀ result, Returned u es leader result → (step u (after u es) (.poll id)).2 = .ended result) ∧
      (GivenUp u es leader →
        (step u (after u es) (.poll id)).2 = .ended (.error (.requestAbandoned slot.token)))

private theorem step_poll_waiting (ht : s.tasks[id]? = some ⟨slot, .waiting leader⟩) :
    (s.Leads leader slot → step u s (.poll id) = (s, .nothing)) ∧
    (∀ result, s.statusOf? leader = some (.finished result) →
      step u s (.poll id) = (s.setStatus id (.finished result), .ended result)) ∧
    (s.statusOf? leader = some .dropped →
      step u s (.poll id) =
        (s.setStatus id (.finished (.error (.requestAbandoned slot.token))),
          .ended (.error (.requestAbandoned slot.token)))) := by
  refine ⟨?_, ?_, ?_⟩
  · rintro ⟨n, epoch, key, hl⟩
    simp [step, poll, ht, hl]
  · intro result hl
    simp only [statusOf?] at hl
    simp [step, poll, ht, hl, finish]
  · intro hl
    simp only [statusOf?] at hl
    simp [step, poll, ht, hl, finish]

private theorem Follows.ended {s : Session} (h : Follows s id slot leader) :
    s.tasks[id]? = some ⟨slot, .waiting leader⟩ ∨ s.Ended id := by
  have hend {status : Status} (hs : s.statusOf? id = some status) (hl : status.isLive = false) : s.Ended id := by
    obtain ⟨slot, ht⟩ := statusOf?_eq_some_iff.1 hs
    exact ⟨_, ht, hl⟩
  cases h with
  | waiting ht => exact .inl ht
  | dropped hd => exact .inr (hend hd rfl)
  | shared hf _ => exact .inr (hend hf rfl)
  | abandoned hf _ => exact .inr (hend hf rfl)

private theorem Joined.result_cases {es : List Event} {result : Except Error String} (h : Joined u es id slot leader)
    (hr : Returned u es id result) :
    Returned u es leader result ∨ (GivenUp u es leader ∧ result = .error (.requestAbandoned slot.token)) := by
  have hs := finished_iff_returned.2 hr
  cases h.follows with
  | waiting ht => cases hs.symm.trans (statusOf?_eq_some_iff.2 ⟨_, ht⟩)
  | dropped hd => cases hs.symm.trans hd
  | shared hf hl =>
    cases hs.symm.trans hf
    exact .inl (finished_iff_returned.1 hl)
  | abandoned hf hl =>
    cases hs.symm.trans hf
    exact .inr ⟨dropped_iff_givenUp.1 hl, rfl⟩

private theorem Joined.sharesOutcome {es : List Event} (h : Joined u es id slot leader) :
    SharesOutcome u es id slot leader where
  bound := h.follows.ended
  source := by
    rcases h.leader_cases with hl | hd | ⟨_, _, _, _, hr⟩
    · exact .inl hl
    · exact .inr (.inl hd)
    · exact .inr (.inr ⟨_, hr⟩)
  patient := by
    intro hl
    constructor
    · intro result hr
      rcases h.result_cases hr with hr | ⟨hd, _⟩
      · exact hl.live.1 result hr
      · exact hl.live.2 hd
    · rcases h.follows.ended with ht | he
      · exact .inr ((step_poll_waiting ht).1 hl)
      · exact .inl he
  takesOver := by
    intro result hr
    rcases h.result_cases hr with hr | ⟨hd, rfl⟩
    · exact .inl ⟨hr, hr.not_givenUp⟩
    · exact .inr ⟨hd, fun other ho => ho.not_givenUp hd, rfl⟩
  abandoned_iff := by
    intro hn result hr
    constructor
    · rintro rfl
      rcases h.result_cases hr with hr | ⟨hd, _⟩
      · rcases h.leader_cases with hl | hd | ⟨n, outcome, key, hm, ho⟩
        · exact absurd hr (hl.live.1 _)
        · exact hd
        · have heq := (finished_iff_returned.2 ho).symm.trans (finished_iff_returned.2 hr)
          rw [outcome_of_abandoned (Status.finished.inj (Option.some.inj heq))] at hm
          exact absurd hm (hn n)
      · exact hd
    · intro hd
      rcases h.result_cases hr with hr | ⟨_, rfl⟩
      · exact absurd hd hr.not_givenUp
      · rfl
  prompt := by
    intro hne
    have ht := h.follows.ended.resolve_right hne
    constructor
    · intro result hr
      rw [(step_poll_waiting ht).2.1 result (finished_iff_returned.2 hr)]
    · intro hd
      rw [(step_poll_waiting ht).2.2 (dropped_iff_givenUp.2 hd)]

/-- The request leads the slot, and the broadcaster has not settled its submission. -/
def Unsettled (s : Session) (id : Nat) (slot : KeySlot) : Prop :=
  ∃ n epoch key, s.tasks[id]? = some ⟨slot, .leading n epoch key⟩ ∧ s.outcomeOf? n = none

private theorem Quiet.unsettled (h : Quiet u s) (hl : s.Leads id slot) : s.Unsettled id slot := by
  obtain ⟨n, epoch, key, ht⟩ := hl
  refine ⟨n, epoch, key, ht, ?_⟩
  by_contra ho
  obtain ⟨outcome, ho⟩ := Option.ne_none_iff_exists'.1 ho
  have hs := h id _ ht nofun
  have hf := tasks_poll_of_settled (u := u) ht ho
  rw [hs] at hf
  cases ht.symm.trans hf

private theorem Quiet.leader_unsettled {es : List Event} (h : Quiet u (after u es))
    (ht : (after u es).tasks[id]? = some ⟨slot, .waiting leader⟩) : (after u es).Unsettled leader slot := by
  have hj := joined_of_waiting ht
  have hs := h id _ ht nofun
  have moved {new : Status} (hn : new ≠ .waiting leader) : (after u es).setStatus id new ≠ after u es := by
    intro he
    have hnew : ((after u es).setStatus id new).tasks[id]? = some ⟨slot, new⟩ := tasks_setStatus_self ht
    rw [he] at hnew
    cases ht.symm.trans hnew
    exact hn rfl
  rcases hj.leader_cases with hl | hd | ⟨_, _, _, _, hr⟩
  · exact h.unsettled hl
  · rw [(step_poll_waiting ht).2.2 (dropped_iff_givenUp.2 hd)] at hs
    exact absurd hs (moved nofun)
  · rw [(step_poll_waiting ht).2.1 _ (finished_iff_returned.2 hr)] at hs
    exact absurd hs (moved nofun)

/-- A request that joined a leader shares what comes of it, in every run. Once no poll moves anything, each live
request that was polled leads with a submission that is not settled, or waits for one that does; and polls alone lead
there from everywhere. -/
theorem waiters_share_outcome (u : Setup) (es : List Event) :
    let s := after u es
    (∀ id slot leader, Joined u es id slot leader → SharesOutcome u es id slot leader) ∧
    (Quiet u s → ∀ id slot status, s.tasks[id]? = some ⟨slot, status⟩ → status.isLive → status ≠ .fresh →
      s.Unsettled id slot ∨ ∃ leader, Joined u es id slot leader ∧ s.Unsettled leader slot) ∧
    ∃ ids : List Nat, Quiet u (after u (es ++ ids.map .poll)) := by
  intro s
  refine ⟨fun _ _ _ hj => hj.sharesOutcome, ?_, exists_quiet u es⟩
  intro hq id slot status ht hl hf
  cases status with
  | fresh => exact absurd rfl hf
  | leading n epoch key => exact .inl (hq.unsettled ⟨n, epoch, key, ht⟩)
  | waiting leader => exact .inr ⟨leader, joined_of_waiting ht, hq.leader_unsettled ht⟩
  | finished _ | dropped => cases hl

end LiquidityBook.Session
