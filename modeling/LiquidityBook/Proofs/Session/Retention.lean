import LiquidityBook.Proofs.Session.Disconnect
import LiquidityBook.Proofs.Session.Ledger
import LiquidityBook.Proofs.Session.Provenance
import LiquidityBook.Proofs.Session.Waiting

/-! A request that succeeds leaves its key in the cache. Where it joined a leader, the leader decides with the epoch
of its own first poll whether the key is kept. -/
namespace LiquidityBook.Session
variable {u : Setup} {s s' : Session} {e : Event} {o : Observation} {id leader : Nat} {slot : KeySlot} {key : String}

/-- An import or an answer to a query: what may write or empty a slot besides requests and disconnections. -/
def Event.rewrites : Event → Bool
  | .importKey .. | .answer .. => true
  | _ => false

/-- The operation does not disconnect the account of the slot, and if it is an import or an answer, then a key that
stands in the slot stays there. -/
def Spares (u : Setup) (s : Session) (slot : KeySlot) (e : Event) : Prop :=
  e.disconnects slot.account = false ∧
    (e.rewrites → ∀ key, s.keys.find? slot = some key → (step u s e).1.keys.find? slot = some key)

def Spared (u : Setup) (s : Session) (slot : KeySlot) (es : List Event) : Prop :=
  ∀ p e q, es = p ++ e :: q → Spares u (run u s p).1 slot e

/-- The key stands in the slot, and no request leads the slot. -/
structure Holds (s : Session) (slot : KeySlot) (key : String) : Prop where
  cached : s.keys.find? slot = some key
  unled : ∀ id, ¬ s.Leads id slot

/-- What becomes of a request that leads the slot in the epoch of its account: it goes on leading in that epoch, or the
key that it came to stands in the slot, or it came to no key. -/
inductive Delivers (s : Session) (id : Nat) (slot : KeySlot) : Prop where
  | leading {n k} (ht : s.tasks[id]? = some ⟨slot, .leading n (s.epoch slot.account) k⟩)
  | issued {k} (hs : s.statusOf? id = some (.finished (.ok k))) (hk : Holds s slot k)
  | failed {fault} (hs : s.statusOf? id = some (.finished (.error fault)))
  | dropped (hs : s.statusOf? id = some .dropped)

/-- A slot that has a key gets no leader. -/
theorem Transition.unled (h : Transition u s e s' o) (hk : Holds s slot key) (id : Nat) : ¬ s'.Leads id slot := by
  rintro ⟨n, epoch, k, ht⟩
  rcases h.leading_cases ht with hs | ⟨rfl, hf, _⟩
  · exact hk.unled id ⟨n, epoch, k, hs⟩
  · obtain ⟨_, _, _, _, _, hn, _⟩ := h.led hf ht
    cases hn.symm.trans hk.cached

private theorem Transition.holds (h : Transition u s e s' o) (hk : Holds s slot key)
    (hd : e.disconnects slot.account = false) (hw : e.rewrites → s'.keys.find? slot = some key) :
    Holds s' slot key := by
  refine ⟨?_, h.unled hk⟩
  cases h with
  | @close id own n epoch k outcome ht _ =>
    rcases keys_finishLeader s id own epoch k outcome with hs | ⟨_, _, hs⟩
    · rw [hs, hk.cached]
    · have hne : own ≠ slot := by
        rintro rfl
        exact hk.unled id ⟨n, epoch, k, ht⟩
      rw [hs, Table.find?_insert_of_ne _ _ hne, hk.cached]
  | keep _ _ | answer _ _ => exact hw rfl
  | disconnect account =>
    have hne : slot.account ≠ account := Ne.symm (of_decide_eq_false hd)
    rw [find?_keys_disconnect, if_neg hne, hk.cached]
  | _ => exact hk.cached

/-- A leader that is answered with the code zero in the epoch of its account puts its key into its slot. -/
private theorem holds_of_close {n : Nat} {outcome : Except Error TxResponse} (h : SingleFlight s)
    (ht : s.tasks[id]? = some ⟨slot, .leading n (s.epoch slot.account) key⟩) (ho : s.outcomeOf? n = some outcome)
    (hok : ((outcome.bind TxResponse.check).map fun _ => key).isOk) : Holds (step u s (.poll id)).1 slot key := by
  obtain ⟨r, rfl, hc⟩ := (TxResponse.isOk_check_iff outcome key).1 hok
  have hst := step_transition u s (.poll id)
  have hw : Writes u s slot key (.poll id) := .issued ht ho hc
  have hend : (step u s (.poll id)).1.Ended id := ⟨_, tasks_poll_of_settled ht ho, rfl⟩
  refine ⟨hw.find?_step, ?_⟩
  intro j hj
  have hfree := hst.freed h ⟨_, _, _, ht⟩ ⟨.inl rfl, hend⟩
  cases hfree.symm.trans ((hst.singleFlight h slot j).2 hj)

private theorem delivers_step (h : SingleFlight s) (hs : Spares u s slot e) (hd : Delivers s id slot) :
    Delivers (step u s e).1 id slot := by
  have hst := step_transition u s e
  have hep : (step u s e).1.epoch slot.account = s.epoch slot.account := by
    rw [hst.epoch_eq, hs.1]
    rfl
  cases hd with
  | @leading n k ht =>
    rcases hst.task_cases id with hk | ⟨hn, _⟩ | ⟨_, _, _, hk, hk', ha⟩
    · refine .leading (n := n) (k := k) ?_
      rw [hep, hk, ht]
    · cases ht.symm.trans hn
    · cases ht.symm.trans hk
      have hk' := statusOf?_eq_some_iff.2 ⟨_, hk'⟩
      cases ha with
      | resolve hr => cases hr
      | @close _ _ _ outcome ho =>
        cases hres : outcome.bind TxResponse.check with
        | error fault => exact .failed (hk'.trans (by rw [hres]; rfl))
        | ok r => exact .issued (hk'.trans (by rw [hres]; rfl)) (holds_of_close h ht ho (by rw [hres]; rfl))
      | drop _ => exact .dropped hk'
  | issued hk hh => exact .issued (hst.statusOf?_of_ended hk rfl) (hst.holds hh hs.1 fun hw => hs.2 hw _ hh.cached)
  | failed hk => exact .failed (hst.statusOf?_of_ended hk rfl)
  | dropped hk => exact .dropped (hst.statusOf?_of_ended hk rfl)

private theorem delivers_run {es : List Event} (h : SingleFlight s) (hs : Spared u s slot es)
    (hd : Delivers s id slot) :
    Delivers (run u s es).1 id slot := by
  induction es using List.reverseRecOn with
  | nil => exact hd
  | append_singleton es e ih =>
    rw [run_concat]
    refine delivers_step (singleFlight_run u h es) (hs es e [] rfl) (ih ?_)
    rintro p d q rfl
    exact hs p d (q ++ [e]) (by simp)

/-- Whoever leads the slot was first polled after every disconnection of its account in the run. -/
def Current (u : Setup) (es : List Event) (slot : KeySlot) : Prop :=
  ∀ leader p q, es = p ++ .poll leader :: q → (after u p).tasks[leader]? = some ⟨slot, .fresh⟩ →
    (after u es).Leads leader slot → ∀ e ∈ q, e.disconnects slot.account = false

private theorem Current.delivers {es : List Event} (hc : Current u es slot) (hl : (after u es).Leads leader slot) :
    Delivers (after u es) leader slot := by
  have hlead := hl
  obtain ⟨n, epoch, k, ht⟩ := hlead
  rcases leading_run ht with h | ⟨p, m, rfl, hf, _, he⟩
  · cases h
  · have hrun := epoch_run u (run u empty p).1 (.poll leader :: m) slot.account
    have hz : (Event.poll leader :: m).countP (·.disconnects slot.account) = 0 := by
      rw [List.countP_eq_zero]
      simpa [Event.disconnects] using hc leader p m rfl hf hl
    rw [hz, Nat.add_zero, ← he, ← run_append] at hrun
    exact .leading (n := n) (k := k) (by rw [ht, after, hrun])

private theorem first_poll_cases {pre : List Event} (hf : (after u pre).tasks[id]? = some ⟨slot, .fresh⟩) :
    (after u (pre ++ [.poll id])).Ended id ∨ Delivers (after u (pre ++ [.poll id])) id slot ∨
      ∃ leader, (after u (pre ++ [.poll id])).tasks[id]? = some ⟨slot, .waiting leader⟩ ∧
        (after u pre).Leads leader slot := by
  rw [after_concat]
  have hst := step_transition u (after u pre) (.poll id)
  have hep := hst.epoch_eq slot.account
  rcases hst.task_cases id with hk | ⟨hn, _⟩ | ⟨_, _, _, hs, hs', ha⟩
  · exact absurd (hk.trans hf) (hst.not_fresh (.inl rfl))
  · cases hf.symm.trans hn
  · cases hf.symm.trans hs
    cases ha with
    | resolve _ => exact .inl ⟨_, hs', rfl⟩
    | join hl => exact .inr (.inr ⟨_, hs', (singleFlight_after u pre slot _).1 hl⟩)
    | lead _ => exact .inr (.inl (.leading (hs'.trans (by rw [hep]; rfl))))

/-- The request has ended, or it is or waits for a request that leads the slot in the epoch of its account or has done
so. -/
def Backed (s : Session) (id : Nat) (slot : KeySlot) : Prop :=
  s.Ended id ∨ Delivers s id slot ∨ ∃ leader, Follows s id slot leader ∧ Delivers s leader slot

private theorem backed_of_first_poll {pre m : List Event} (hf : (after u pre).tasks[id]? = some ⟨slot, .fresh⟩)
    (hc : Current u pre slot) (hs : Spared u (after u pre) slot (.poll id :: m)) :
    Backed (after u (pre ++ .poll id :: m)) id slot := by
  have hsplit : after u (pre ++ .poll id :: m) = (run u (after u (pre ++ [.poll id])) m).1 := by
    rw [after, after, ← run_append, List.append_assoc]
    rfl
  have hrest : Spared u (after u (pre ++ [.poll id])) slot m := by
    rintro p e q rfl
    rw [after_concat]
    exact hs (.poll id :: p) e q rfl
  have hflight := singleFlight_after u (pre ++ [.poll id])
  rw [hsplit]
  rcases first_poll_cases hf with ⟨t, ht, hl⟩ | hd | ⟨leader, ht, hl⟩
  · refine .inl ⟨t, ?_, hl⟩
    exact run_induction (fun _ _ _ _ h hst => hst.ended_eq h hl) ht m
  · exact .inr (.inl (delivers_run hflight hrest hd))
  · have hd := delivers_step (singleFlight_after u pre) (hs [] (.poll id) m rfl) (hc.delivers hl)
    rw [← after_concat] at hd
    exact .inr (.inr ⟨leader, follows_run u m (.waiting ht), delivers_run hflight hrest hd⟩)

private theorem Backed.find?_of_waiting {own : KeySlot} (h : Backed s id slot)
    (ht : s.tasks[id]? = some ⟨own, .waiting leader⟩) (hl : s.statusOf? leader = some (.finished (.ok key))) :
    s.keys.find? slot = some key := by
  have hst := statusOf?_eq_some_iff.2 ⟨own, ht⟩
  rcases h with ⟨t, ht', hl'⟩ | hd | ⟨_, hfol, hd⟩
  · cases ht.symm.trans ht'
    cases hl'
  · cases hd with
    | leading ht' => cases ht.symm.trans ht'
    | issued hs' _ | failed hs' | dropped hs' => cases hst.symm.trans hs'
  · cases hfol with
    | waiting ht' =>
      cases ht.symm.trans ht'
      cases hd with
      | leading ht' => cases hl.symm.trans (statusOf?_eq_some_iff.2 ⟨_, ht'⟩)
      | issued hs' hk =>
        cases hl.symm.trans hs'
        exact hk.cached
      | failed hs' | dropped hs' => cases hl.symm.trans hs'
    | dropped hs' | shared hs' _ | abandoned hs' _ => cases hst.symm.trans hs'

private theorem Backed.eq_of_leading {own : KeySlot} {n epoch : Nat} (h : Backed s id slot)
    (ht : s.tasks[id]? = some ⟨own, .leading n epoch key⟩) : own = slot ∧ epoch = s.epoch slot.account := by
  have hst := statusOf?_eq_some_iff.2 ⟨own, ht⟩
  rcases h with ⟨t, ht', hl'⟩ | hd | ⟨_, hfol, _⟩
  · cases ht.symm.trans ht'
    cases hl'
  · cases hd with
    | leading ht' =>
      cases ht.symm.trans ht'
      exact ⟨rfl, rfl⟩
    | issued hs' _ | failed hs' | dropped hs' => cases hst.symm.trans hs'
  · cases hfol with
    | waiting ht' => cases ht.symm.trans ht'
    | dropped hs' | shared hs' _ | abandoned hs' _ => cases hst.symm.trans hs'

/-- The request is first polled right after the first run, and a poll of it after the second run returns the key. -/
structure Receives (u : Setup) (pre body : List Event) (id : Nat) (slot : KeySlot) (key : String) : Prop where
  fresh : (after u pre).tasks[id]? = some ⟨slot, .fresh⟩
  first : body = [] ∨ ∃ m, body = .poll id :: m
  returned : (step u (after u (pre ++ body)) (.poll id)).2 = .ended (.ok key)

/-- How a poll comes to return a key: the slot has it, or the leader that was waited for came to it, or the request
leads and its submission succeeded. Only the last one touches the cache. -/
private theorem Transition.ended_ok_cases (h : Transition u s (.poll id) s' (.ended (.ok key))) :
    (∃ own, s.tasks[id]? = some ⟨own, .fresh⟩ ∧ s.keys.find? own = some key ∧ s'.keys = s.keys) ∨
    (∃ own leader, s.tasks[id]? = some ⟨own, .waiting leader⟩ ∧
      s.statusOf? leader = some (.finished (.ok key)) ∧ s'.keys = s.keys) ∨
    ∃ own n epoch outcome, s.tasks[id]? = some ⟨own, .leading n epoch key⟩ ∧ s.outcomeOf? n = some outcome ∧
      ((outcome.bind TxResponse.check).map fun _ => key).isOk := by
  generalize ho : Observation.ended (.ok key) = o at h
  cases h with
  | idle hi => cases hi <;> cases ho
  | resolve ht hr =>
    cases ho
    cases hr with
    | cached _ hk => exact .inl ⟨_, ht, hk, rfl⟩
    | shared hl => exact .inr (.inl ⟨_, _, ht, hl, rfl⟩)
  | @close _ own n epoch k outcome ht hout =>
    have hres : ((outcome.bind TxResponse.check).map fun _ => k) = .ok key := (Observation.ended.inj ho).symm
    have hkey : k = key := by
      cases hb : outcome.bind TxResponse.check with
      | error fault =>
        rw [hb] at hres
        cases hres
      | ok r =>
        rw [hb] at hres
        exact Except.ok.inj hres
    subst hkey
    exact .inr (.inr ⟨own, n, epoch, outcome, ht, hout, by rw [hres]; rfl⟩)
  | _ => cases ho

private theorem Receives.cached {pre body : List Event} (h : Receives u pre body id slot key)
    (hs : Spared u (after u pre) slot body) (hc : Current u pre slot) :
    (step u (after u (pre ++ body)) (.poll id)).1.keys.find? slot = some key := by
  have hst := step_transition u (after u (pre ++ body)) (.poll id)
  rw [h.returned] at hst
  rcases h.first with rfl | ⟨m, rfl⟩
  · rw [List.append_nil] at hst ⊢
    rcases hst.ended_ok_cases with ⟨own, ht, hk, hkeys⟩ | ⟨_, _, ht, _⟩ | ⟨_, _, _, _, ht, _⟩
    · cases h.fresh.symm.trans ht
      rw [hkeys, hk]
    · cases h.fresh.symm.trans ht
    · cases h.fresh.symm.trans ht
  · have hb := backed_of_first_poll h.fresh hc hs
    rcases hst.ended_ok_cases with ⟨own, ht, _⟩ | ⟨own, leader, ht, hl, hkeys⟩ | ⟨own, n, epoch, outcome, ht, ho, hok⟩
    · obtain ⟨new, hn, hf⟩ := polled_after m h.fresh
      cases hn.symm.trans ht
      exact absurd rfl hf
    · rw [hkeys]
      exact hb.find?_of_waiting ht hl
    · obtain ⟨rfl, rfl⟩ := hb.eq_of_leading ht
      exact (holds_of_close (singleFlight_after u _) ht ho hok).cached

private theorem spared_of_forall {es : List Event}
    (h : ∀ e ∈ es, e.disconnects slot.account = false ∧ e.rewrites = false) : Spared u s slot es := by
  rintro p e q rfl
  obtain ⟨hd, hr⟩ := h e (by simp)
  refine ⟨hd, ?_⟩
  simp [hr]

/-- A request that returns a key leaves it in the cache, if since its first poll the account was not disconnected,
neither an import nor a refusal took the slot's key away, and whoever led the slot at that poll was itself first
polled after every disconnection of the account. -/
theorem successful_request_kept (u : Setup) (pre body : List Event) (id : Nat) (slot : KeySlot) (key : String)
    (h : Receives u pre body id slot key) (hs : Spared u (after u pre) slot body) (hc : Current u pre slot) :
    let s := (step u (after u (pre ++ body)) (.poll id)).1
    s.get slot = .ok key ∧ s.state slot = .cached := by
  intro s
  have hk : s.keys.find? slot = some key := h.cached hs hc
  exact ⟨by simp only [get, hk], state_eq_cached_iff.2 (by rw [hk]; rfl)⟩

/-- A reconnected account keeps the key of a request that joins a leader first polled after the disconnection. -/
theorem successful_request_kept_waiter :
    let u := Setup.single ⟨"token", "hash", "TKN", 6⟩
    let slot : KeySlot := ⟨"token", "alice"⟩
    let pre : List Event := [.start slot, .start slot, .disconnect "alice", .poll 0]
    let body : List Event := [.poll 1, .settle 0 accepted, .poll 0]
    Receives u pre body 1 slot (u.key 0) ∧ Spared u (after u pre) slot body ∧ Current u pre slot ∧
      (step u (after u (pre ++ body)) (.poll 1)).1.get slot = .ok (u.key 0) := by
  intro u slot pre body
  have hr : Receives u pre body 1 slot (u.key 0) :=
    ⟨by decide +kernel, .inr ⟨_, rfl⟩, by decide +kernel⟩
  have hs : Spared u (after u pre) slot body := spared_of_forall (by decide +kernel)
  have hc : Current u pre slot := by
    intro leader p q hp _ _
    have hq : p = [.start slot, .start slot, .disconnect "alice"] ∧ leader = 0 ∧ q = [] := by
      simpa [pre, List.cons_eq_append_iff] using hp
    obtain ⟨_, _, rfl⟩ := hq
    nofun
  exact ⟨hr, hs, hc, (successful_request_kept u pre body 1 slot (u.key 0) hr hs hc).1⟩

/-- A request that is first polled after the account was disconnected and joins a leader from before returns a key
that is not kept, though the account stays connected. -/
theorem reconnected_request_not_kept :
    let u := Setup.single ⟨"token", "hash", "TKN", 6⟩
    let slot : KeySlot := ⟨"token", "alice"⟩
    let pre : List Event := [.start slot, .start slot, .poll 0, .disconnect "alice"]
    let body : List Event := [.poll 1, .settle 0 accepted, .poll 0]
    Receives u pre body 1 slot (u.key 0) ∧ Spared u (after u pre) slot body ∧
      (step u (after u (pre ++ body)) (.poll 1)).1.get slot = .error (.keyNotFound "token" "alice") ∧
      (step u (after u (pre ++ body)) (.poll 1)).1.state slot = .unissued := by
  intro u slot pre body
  have hr : Receives u pre body 1 slot (u.key 0) :=
    ⟨by decide +kernel, .inr ⟨_, rfl⟩, by decide +kernel⟩
  exact ⟨hr, spared_of_forall (by decide +kernel), by decide +kernel, by decide +kernel⟩

end LiquidityBook.Session
