import LiquidityBook.Proofs.Session.Ending
import Mathlib.Data.List.Nodup

/-! The ledger of a run: the requests that had to issue a key when they were first polled, in the order of those
polls. The broadcaster is handed one transaction for each of them, and nothing else. -/
namespace LiquidityBook.Session
variable {u : Setup} {s s' : Session} {e : Event} {o : Observation} {id : Nat} {slot : KeySlot}

/-- A request that has to issue a key for its slot. -/
structure Opening where
  task : Nat
  slot : KeySlot
  token : Token

/-- The request was never polled, its token is registered, and its slot has neither a key nor a live leader. -/
structure Opens (u : Setup) (s : Session) (a : Opening) : Prop where
  fresh : s.tasks[a.task]? = some ⟨a.slot, .fresh⟩
  registered : u.registry.get a.slot.token = .ok a.token
  keyless : s.keys.find? a.slot = none
  unled : ∀ id, ¬ s.Leads id a.slot

/-- The request that has to issue a key, if the operation is the first poll of one. -/
def opening? (u : Setup) (s : Session) : Event → Option Opening
  | .poll id =>
    match s.tasks[id]? with
    | some ⟨slot, .fresh⟩ =>
      match u.registry.get slot.token with
      | .ok token =>
        if s.keys.find? slot = none ∧ ∀ t ∈ s.tasks, t.slot = slot → t.status.isLeading = false then
          some ⟨id, slot, token⟩
        else none
      | .error _ => none
    | _ => none
  | _ => none

/-- The requests that had to issue a key in the run, in the order of their first polls. -/
def ledger (u : Setup) (s : Session) : List Event → List Opening
  | [] => []
  | e :: es => (opening? u s e).toList ++ ledger u (step u s e).1 es

/-- What was handed to the broadcaster, in order. -/
def requests (s : Session) : List TxRequest := s.submissions.map Submission.request

theorem length_requests (s : Session) : s.requests.length = s.submissions.length := List.length_map ..

private theorem unled_iff : (∀ id, ¬ s.Leads id slot) ↔ ∀ t ∈ s.tasks, t.slot = slot → t.status.isLeading = false := by
  constructor
  · rintro h ⟨own, status⟩ hm rfl
    obtain ⟨id, hid⟩ := List.mem_iff_getElem?.1 hm
    cases status with
    | leading n epoch key => exact absurd ⟨n, epoch, key, hid⟩ (h id)
    | _ => rfl
  · rintro h id ⟨n, epoch, key, ht⟩
    cases h _ (List.mem_of_getElem? ht) rfl

private theorem opening?_eq_some_iff {a : Opening} : opening? u s e = some a ↔ e = .poll a.task ∧ Opens u s a := by
  constructor
  · intro h
    cases e with
    | poll id =>
      simp only [opening?] at h
      split at h
      · split at h
        · split at h
          · rename_i ht _ _ hr hn
            cases h
            exact ⟨rfl, ht, hr, hn.1, unled_iff.2 hn.2⟩
          · cases h
        · cases h
      · cases h
    | _ => cases h
  · rintro ⟨rfl, ht, hr, hk, hl⟩
    simp only [opening?, ht, hr]
    exact if_pos ⟨hk, unled_iff.1 hl⟩

private theorem ledger_concat (u : Setup) (s : Session) (es : List Event) (e : Event) :
    ledger u s (es ++ [e]) = ledger u s es ++ (opening? u (run u s es).1 e).toList := by
  induction es generalizing s with
  | nil => simp [ledger, run]
  | cons d es ih =>
    simp only [List.cons_append, ledger, ih, List.append_assoc]
    rfl

theorem requests_settle (s : Session) (n : Nat) (outcome : Except Error TxResponse) :
    (s.settle n outcome).1.requests = s.requests := by
  apply List.ext_getElem?
  intro m
  by_cases hm : n = m
  · subst hm
    cases hb : s.submissions[n]? <;> simp [requests, Session.settle, hb]
  · simp [requests, Session.settle, hm]

/-- An operation hands something to the broadcaster exactly if it is the first poll of a request that has to issue a
key, and then it is one transaction. -/
theorem Transition.requests_cases (h : Transition u s e s' o) (hs : SingleFlight s) :
    (∃ a : Opening, e = .poll a.task ∧ Opens u s a ∧
      s'.requests = s.requests ++ [u.issuance a.token a.slot.account s.submissions.length]) ∨
    ((∀ a : Opening, e = .poll a.task → ¬ Opens u s a) ∧ s'.requests = s.requests) := by
  cases h with
  | @lead id slot token ht hr hk hf =>
    refine .inl ⟨⟨id, slot, token⟩, rfl, ⟨ht, hr, hk, ?_⟩, by simp [requests]⟩
    intro id hl
    cases hf.symm.trans ((hs slot id).2 hl)
  | idle hi =>
    refine .inr ⟨?_, rfl⟩
    rintro a rfl hn
    cases hi with
    | unknown h => cases hn.fresh.symm.trans h
    | ended ht hl =>
      cases hn.fresh.symm.trans ht
      cases hl
    | unsettled ht _ => cases hn.fresh.symm.trans ht
    | waiting ht _ => cases hn.fresh.symm.trans ht
  | resolve ht hres =>
    refine .inr ⟨?_, rfl⟩
    rintro a he hn
    cases he
    cases hn.fresh.symm.trans ht
    cases hres with
    | unregistered hr => cases hn.registered.symm.trans hr
    | cached _ hk => cases hn.keyless.symm.trans hk
  | @join _ _ _ leader ht _ _ hf =>
    refine .inr ⟨?_, rfl⟩
    rintro a he hn
    cases he
    cases hn.fresh.symm.trans ht
    exact hn.unled leader ((hs _ leader).1 hf)
  | close ht _ =>
    refine .inr ⟨?_, rfl⟩
    rintro a he hn
    cases he
    cases hn.fresh.symm.trans ht
  | settle n outcome => exact .inr ⟨nofun, requests_settle s n outcome⟩
  | answer _ _ => exact .inr ⟨nofun, by simp [requests]⟩
  | _ => exact .inr ⟨nofun, rfl⟩

theorem Transition.not_fresh (h : Transition u s e s' o) (he : e = .poll id ∨ e = .drop id) :
    s'.tasks[id]? ≠ some ⟨slot, .fresh⟩ := by
  intro hf
  rcases he with rfl | rfl
  · cases h with
    | idle hi =>
      cases hi with
      | unknown hn => cases hn.symm.trans hf
      | ended ht hl =>
        cases ht.symm.trans hf
        cases hl
      | unsettled ht _ | waiting ht _ => cases ht.symm.trans hf
    | resolve ht _ | join ht _ _ _ | lead ht _ _ _ | close ht _ =>
      cases hf.symm.trans (tasks_setStatus_self ht)
  · cases h with
    | idle hi =>
      cases hi with
      | notLive hn => cases hn _ hf
    | release ht | abandon ht _ _ => cases hf.symm.trans (tasks_setStatus_self ht)

private theorem Transition.fresh_iff (h : Transition u s e s' o) :
    s'.tasks[id]? = some ⟨slot, .fresh⟩ ↔
      (s.tasks[id]? = some ⟨slot, .fresh⟩ ∧ .poll id ≠ e ∧ .drop id ≠ e) ∨
        (e = .start slot ∧ s.tasks.length = id) := by
  constructor
  · intro hf
    rcases h.task_cases id with hk | ⟨hn, own, rfl, hk⟩ | ⟨_, _, _, _, hk, ha⟩
    · exact .inl ⟨hk ▸ hf, fun he => h.not_fresh (.inl he.symm) hf, fun he => h.not_fresh (.inr he.symm) hf⟩
    · cases hf.symm.trans hk
      cases h with
      | idle hi => cases hi
      | start _ =>
        have hlt := (List.getElem?_eq_some_iff.1 hf).1
        have hge := List.getElem?_eq_none_iff.1 hn
        simp only [Session.start, List.length_append, List.length_singleton] at hlt
        exact .inr ⟨rfl, by omega⟩
    · cases hf.symm.trans hk
      cases ha
  · rintro (⟨hf, hp, hd⟩ | ⟨rfl, rfl⟩)
    · rcases h.task_cases id with hk | ⟨hn, _⟩ | ⟨_, _, _, _, _, ha⟩
      · exact hk.trans hf
      · cases hf.symm.trans hn
      · cases ha with
        | drop _ => exact absurd rfl hd
        | _ => exact absurd rfl hp
    · cases h with
      | idle hi => cases hi
      | start _ => simp [Session.start]

/-- A request is fresh exactly if the run started it and has neither polled nor dropped it since. -/
theorem fresh_iff_untouched {es : List Event} : (after u es).tasks[id]? = some ⟨slot, .fresh⟩ ↔
    ∃ p q, es = p ++ .start slot :: q ∧ (after u p).tasks.length = id ∧ .poll id ∉ q ∧ .drop id ∉ q := by
  induction es using List.reverseRecOn with
  | nil => simp [after, run, empty]
  | append_singleton es e ih =>
    rw [after_concat, (step_transition u _ e).fresh_iff, ih, exists_split_concat]
    simp only [List.mem_append, List.mem_singleton, not_or, List.not_mem_nil, not_false_eq_true, and_true]
    refine or_congr_left ⟨?_, ?_⟩
    · rintro ⟨⟨p, q, hs, hl, hp, hd⟩, hpe, hde⟩
      exact ⟨p, q, hs, hl, ⟨hp, hpe⟩, hd, hde⟩
    · rintro ⟨p, q, hs, hl, ⟨hp, hpe⟩, hd, hde⟩
      exact ⟨⟨p, q, hs, hl, hp, hd⟩, hpe, hde⟩

theorem polled_after {p : List Event} (q : List Event) (hf : (after u p).tasks[id]? = some ⟨slot, .fresh⟩) :
    ∃ new, (after u (p ++ .poll id :: q)).tasks[id]? = some ⟨slot, new⟩ ∧ new ≠ .fresh := by
  have ht := step_transition u (after u p) (.poll id)
  rcases ht.task_cases id with hk | ⟨hn, _⟩ | ⟨_, _, new, hs, hs', ha⟩
  · exact absurd (hk.trans hf) (ht.not_fresh (.inl rfl))
  · cases hf.symm.trans hn
  · cases hf.symm.trans hs
    have hrun := polled_run u q hs' (by cases ha <;> nofun)
    rwa [← after_concat, after, ← run_append, List.append_assoc] at hrun

/-- The ledger holds exactly the requests that had to issue a key at their first poll. -/
theorem mem_ledger_iff {es : List Event} {a : Opening} :
    a ∈ ledger u empty es ↔ ∃ p q, es = p ++ .poll a.task :: q ∧ Opens u (after u p) a := by
  induction es using List.reverseRecOn with
  | nil => simp [ledger]
  | append_singleton es e ih =>
    rw [ledger_concat, List.mem_append, ih, exists_split_concat, Option.mem_toList, opening?_eq_some_iff]
    rfl

private theorem ledger_nodup (u : Setup) (es : List Event) : ((ledger u empty es).map Opening.task).Nodup := by
  induction es using List.reverseRecOn with
  | nil => exact .nil
  | append_singleton es e ih =>
    rw [ledger_concat]
    cases ho : opening? u (run u empty es).1 e with
    | none => simpa using ih
    | some a =>
      obtain ⟨rfl, hn⟩ := opening?_eq_some_iff.1 ho
      rw [Option.toList_some, List.map_append]
      refine List.nodup_append.2 ⟨ih, List.nodup_singleton _, ?_⟩
      rintro _ hid _ ha rfl
      obtain ⟨b, hb, rfl⟩ := List.mem_map.1 hid
      have hab : b.task = a.task := List.mem_singleton.1 ha
      obtain ⟨p, q, rfl, hnb⟩ := mem_ledger_iff.1 hb
      obtain ⟨new, ht, hf⟩ := polled_after q hnb.fresh
      have hfresh := hn.fresh
      rw [← hab] at hfresh
      have heq := congrArg Task.status (Option.some.inj (hfresh.symm.trans ht))
      exact hf heq.symm

private theorem requests_eq_ledger (u : Setup) (es : List Event) : (after u es).requests =
    (ledger u empty es).mapIdx fun n a => u.issuance a.token a.slot.account n := by
  induction es using List.reverseRecOn with
  | nil => rfl
  | append_singleton es e ih =>
    have hlen : (ledger u empty es).length = (after u es).submissions.length := by
      rw [← length_requests, ih, List.length_mapIdx]
    rw [after_concat, ledger_concat, List.mapIdx_append, ← ih, hlen]
    rcases (step_transition u (after u es) e).requests_cases (singleFlight_after u es) with
      ⟨a, he, ha, hr⟩ | ⟨hn, hr⟩
    · have ho : opening? u (run u empty es).1 e = some a := opening?_eq_some_iff.2 ⟨he, ha⟩
      rw [hr, ho]
      simp
    · have ho : opening? u (run u empty es).1 e = none := by
        rw [Option.eq_none_iff_forall_ne_some]
        intro a ha
        obtain ⟨he, ha⟩ := opening?_eq_some_iff.1 ha
        exact hn a he ha
      rw [hr, ho]
      simp

/-- In every run the broadcaster is handed one transaction for each request that found, at its first poll, its token
registered and its slot without a key and without a live leader, in the order of those polls, and nothing else: from
the account, to the contract of the token, with the next fresh key. No other operation hands it anything. -/
theorem submission_ledger (u : Setup) (es : List Event) :
    let s := after u es
    s.requests = ((ledger u empty es).mapIdx fun n a =>
      ⟨a.slot.account, a.token.contract, .setViewingKey (u.key n) u.padding, u.gasLimit⟩) ∧
    ((ledger u empty es).map Opening.task).Nodup ∧
    (∀ a, a ∈ ledger u empty es ↔ ∃ p q, es = p ++ .poll a.task :: q ∧ Opens u (after u p) a) ∧
    (∀ id slot, s.tasks[id]? = some ⟨slot, .fresh⟩ ↔ ∃ p q, es = p ++ .start slot :: q ∧
      (after u p).tasks.length = id ∧ .poll id ∉ q ∧ .drop id ∉ q) ∧
    (∀ e, (∃ a : Opening, e = .poll a.task ∧ Opens u s a ∧ (step u s e).1.requests = s.requests ++
        [⟨a.slot.account, a.token.contract, .setViewingKey (u.key s.requests.length) u.padding, u.gasLimit⟩]) ∨
      ((∀ a : Opening, e = .poll a.task → ¬ Opens u s a) ∧ (step u s e).1.requests = s.requests)) ∧
    ∀ n, ((u.key n).length = 64 ∧ ∀ c ∈ (u.key n).toList, Hex.isDigit c) ∧
      ExecuteMsg.ofViewingKey (u.key n) u.padding = .ok (.setViewingKey (u.key n) u.padding) := by
  intro s
  refine ⟨requests_eq_ledger u es, ledger_nodup u es, fun _ => mem_ledger_iff, fun _ _ => fresh_iff_untouched, ?_, ?_⟩
  · intro e
    rw [length_requests]
    exact (step_transition u s e).requests_cases (singleFlight_after u es)
  · intro n
    have hv := u.key_isValid n
    refine ⟨by simpa [ViewingKey.isValid] using hv, ?_⟩
    simp only [ExecuteMsg.ofViewingKey, hv, if_true]

end LiquidityBook.Session
