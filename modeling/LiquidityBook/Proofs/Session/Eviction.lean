import LiquidityBook.Proofs.Session.Provenance

/-! Refused viewing keys. A refusal takes the key out of the slot of its query, whatever the slot holds by the time
the answer comes; that is the key of the query as long as nothing writes the slot in between. -/
namespace LiquidityBook.Session
variable {u : Setup} {s s' : Session} {e : Event} {o : Observation} {n : Nat} {q : BalanceQuery} {slot : KeySlot}
  {raw : Except Error Json}

/-- The answer says that the contract refuses the key. -/
def Refuses (raw : Except Error Json) : Prop :=
  ∃ json msg, raw = .ok json ∧ QueryAnswer.ofAnswer? json = some (.viewingKeyError msg)

private theorem takeAnswer_of_refuses (s : Session) (q : BalanceQuery) (h : Refuses raw) :
    takeAnswer s q raw =
      ({ s with keys := s.keys.erase q.slot }, .error (.keyNotFound q.slot.token q.slot.account)) := by
  obtain ⟨json, msg, rfl, hj⟩ := h
  simp only [takeAnswer, hj]

theorem takeAnswer_of_not_refuses (s : Session) (q : BalanceQuery) (h : ¬ Refuses raw) :
    (takeAnswer s q raw).1 = s := by
  cases raw with
  | error e => rfl
  | ok json =>
    simp only [takeAnswer]
    cases hj : QueryAnswer.ofAnswer? json with
    | none => rfl
    | some answer =>
      cases answer with
      | balance amount => rfl
      | viewingKeyError msg => exact absurd ⟨json, msg, rfl, hj⟩ h

private theorem Transition.query_cases (h : Transition u s e s' o) (hq : s'.queries[n]? = some q) :
    (∃ old : BalanceQuery, s.queries[n]? = some old ∧ old.slot = q.slot ∧ old.key = q.key) ∨
      (e = .ask q.slot ∧ s.queries.length = n ∧ s.keys.find? q.slot = some q.key) := by
  cases h with
  | @ask _ new hb =>
    obtain ⟨rfl, _, hk⟩ := balanceQuery_eq_ok hb
    rcases Nat.lt_trichotomy n s.queries.length with hn | rfl | hn
    · rw [List.getElem?_append_left hn] at hq
      exact .inl ⟨q, hq, rfl, rfl⟩
    · simp only [List.getElem?_concat_length, Option.some.injEq] at hq
      subst hq
      exact .inr ⟨rfl, rfl, hk⟩
    · rw [List.getElem?_eq_none (by simp; omega)] at hq
      cases hq
  | @answer m _ _ _ _ =>
    simp only [takeAnswer_queries, List.getElem?_modify] at hq
    obtain ⟨old, ho, rfl⟩ := Option.map_eq_some_iff.1 hq
    by_cases hm : m = n
    · exact .inl ⟨old, ho, by simp [hm]⟩
    · exact .inl ⟨old, ho, by simp [hm]⟩
  | _ => exact .inl ⟨q, hq, rfl, rfl⟩

/-- A query was asked in the run, with the key that its slot held then. -/
theorem asked_of_query {es : List Event} (hq : (after u es).queries[n]? = some q) :
    ∃ p r, es = p ++ .ask q.slot :: r ∧ (after u p).queries.length = n ∧
      (after u p).keys.find? q.slot = some q.key := by
  induction es using List.reverseRecOn generalizing q with
  | nil => cases hq
  | append_singleton es e ih =>
    rw [after_concat] at hq
    apply exists_split_concat.2
    rcases (step_transition u _ e).query_cases hq with ⟨old, ho, hs, hk⟩ | ha
    · rw [← hs, ← hk]
      exact .inl (ih ho)
    · exact .inr ha

private theorem keys_ask (u : Setup) (s : Session) (slot : KeySlot) : (step u s (.ask slot)).1.keys = s.keys := by
  simp only [step, ask]
  cases balanceQuery u s slot <;> rfl

/-- The key that a slot holds when an answer comes is the one that the query showed, or it was written in between. -/
theorem key_of_pending {p r : List Event} {key : String}
    (hk : (after u p).keys.find? q.slot = some q.key)
    (h : (after u (p ++ .ask q.slot :: r)).keys.find? q.slot = some key) :
    key = q.key ∨ ∃ m e t, r = m ++ e :: t ∧ Writes u (after u (p ++ .ask q.slot :: m)) q.slot key e := by
  have hsplit (m : List Event) : after u (p ++ .ask q.slot :: m) =
        (run u (step u (after u p) (.ask q.slot)).1 m).1 := by
    rw [after, run_append]
    rfl
  rw [hsplit] at h
  rcases last_write h with h | ⟨m, e, t, rfl, hw, _⟩
  · rw [keys_ask, hk] at h
    exact .inl (Option.some.inj h).symm
  · exact .inr ⟨m, e, t, rfl, by rwa [hsplit]⟩

private theorem takeAnswer_with_queries (s : Session) (queries : List BalanceQuery) (q : BalanceQuery)
    (raw : Except Error Json) : takeAnswer { s with queries } q raw =
      ({ (takeAnswer s q raw).1 with queries }, (takeAnswer s q raw).2) := by
  unfold takeAnswer
  repeat' split
  all_goals rfl

private theorem step_answer (hq : s.queries[n]? = some q) (ha : q.answered = false) :
    step u s (.answer n raw) = ({ (takeAnswer s q raw).1 with
      queries := s.queries.modify n fun q => { q with answered := true } }, .balance (takeAnswer s q raw).2) := by
  simp [step, answer, hq, ha]

private theorem step_answer_of_refuses (hq : s.queries[n]? = some q) (ha : q.answered = false) (hr : Refuses raw) :
    step u s (.answer n raw) = ({ s with
      keys := s.keys.erase q.slot
      queries := s.queries.modify n fun q => { q with answered := true } },
      .balance (.error (.keyNotFound q.slot.token q.slot.account))) := by
  rw [step_answer hq ha, takeAnswer_of_refuses s q hr]

/-- A balance is a query that is answered before anything else happens. -/
theorem run_ask_answer (hb : balanceQuery u s slot = .ok q) (querier : Querier) :
    run u s [.ask slot, .answer s.queries.length (querier q.contract q.msg)] =
      ({ (balance u s slot querier).1 with queries := s.queries ++ [{ q with answered := true }] },
        [.asked (.ok q.msg), .balance (balance u s slot querier).2.1]) := by
  have ha := (balanceQuery_eq_ok hb).2.1
  have hm : (s.queries ++ [q]).modify s.queries.length (fun q => { q with answered := true }) =
      s.queries ++ [{ q with answered := true }] := by
    simp [List.modify_eq_take_drop]
  simp [run, step, ask, answer, balance, hb, ha, takeAnswer_with_queries, hm]

/-- What a refusal leaves of the keys: its slot is empty, and every other slot is as it was. -/
def Evicted (before after : Table KeySlot String) (slot : KeySlot) : Prop :=
  after.find? slot = none ∧ ∀ other, other ≠ slot → after.find? other = before.find? other

private theorem evicted_erase (keys : Table KeySlot String) (slot : KeySlot) : Evicted keys (keys.erase slot) slot :=
  ⟨Table.find?_erase_self .., fun _ hne => Table.find?_erase_of_ne _ hne.symm⟩

private theorem balance_of_refuses {querier : Querier} (hb : balanceQuery u s slot = .ok q)
    (hr : Refuses (querier q.contract q.msg)) :
    s.keys.find? slot = some q.key ∧ (balance u s slot querier).2.1 = .error (.keyNotFound slot.token slot.account) ∧
      Evicted s.keys (balance u s slot querier).1.keys slot := by
  obtain ⟨rfl, ha, hk⟩ := balanceQuery_eq_ok hb
  have hrun := run_ask_answer hb querier
  have hasked : step u s (.ask q.slot) = ({ s with queries := s.queries ++ [q] }, .asked (.ok q.msg)) := by
    simp [step, ask, hb]
  have hanswered := step_answer_of_refuses (u := u) (s := { s with queries := s.queries ++ [q] })
    (n := s.queries.length) (by simp) ha hr
  simp only [run, hasked, hanswered, Prod.mk.injEq, List.cons.injEq, Observation.balance.injEq] at hrun
  have hkeys : s.keys.erase q.slot = (balance u s q.slot querier).1.keys := congrArg Session.keys hrun.1
  exact ⟨hk, hrun.2.2.1.symm, hkeys ▸ evicted_erase s.keys q.slot⟩

/-- An answer that refuses the key of a query empties the slot of the query and leaves all else as it is; any other
answer leaves all keys. What the slot holds by then is the key of the query, unless the slot was written while the
query was pending. In a balance that is answered at once, it is the key of the query. -/
theorem refused_key_eviction (u : Setup) (es : List Event) (n : Nat) (q : BalanceQuery) (raw : Except Error Json)
    (hq : (after u es).queries[n]? = some q) (ha : q.answered = false) :
    let s := after u es
    let s' := (step u s (.answer n raw)).1
    (¬ Refuses raw → s'.keys = s.keys) ∧
    (Refuses raw → (step u s (.answer n raw)).2 = .balance (.error (.keyNotFound q.slot.token q.slot.account)) ∧
      s'.keys.find? q.slot = none ∧ ∀ slot, slot ≠ q.slot → s'.keys.find? slot = s.keys.find? slot) ∧
    s'.inFlight = s.inFlight ∧ s'.epochs = s.epochs ∧ s'.tasks = s.tasks ∧ s'.submissions = s.submissions ∧
    (∃ p r, es = p ++ .ask q.slot :: r ∧ (after u p).queries.length = n ∧
      (after u p).keys.find? q.slot = some q.key ∧ (r = [] → s.keys.find? q.slot = some q.key) ∧
      ∀ key, s.keys.find? q.slot = some key → key = q.key ∨
        ∃ m e t, r = m ++ e :: t ∧ Writes u (after u (p ++ .ask q.slot :: m)) q.slot key e) ∧
    ∀ slot asked querier, balanceQuery u s slot = .ok asked → Refuses (querier asked.contract asked.msg) →
      s.keys.find? slot = some asked.key ∧
        (balance u s slot querier).2.1 = .error (.keyNotFound slot.token slot.account) ∧
        Evicted s.keys (balance u s slot querier).1.keys slot := by
  intro s s'
  have hs : step u s (.answer n raw) = ({ (takeAnswer s q raw).1 with
      queries := s.queries.modify n fun q => { q with answered := true } }, .balance (takeAnswer s q raw).2) :=
    step_answer hq ha
  have hs' : s' = _ := congrArg Prod.fst hs
  refine ⟨?_, ?_, by simp [hs'], by simp [hs'], by simp [hs'], by simp [hs'], ?_, ?_⟩
  · intro hr
    rw [hs', takeAnswer_of_not_refuses s q hr]
  · intro hr
    have hgone := step_answer_of_refuses (u := u) hq ha hr
    rw [show s' = _ from congrArg Prod.fst hgone, hgone]
    exact ⟨rfl, evicted_erase s.keys q.slot⟩
  · obtain ⟨p, r, rfl, hn, hk⟩ := asked_of_query hq
    refine ⟨p, r, rfl, hn, hk, ?_, fun key h => key_of_pending hk h⟩
    rintro rfl
    rw [show s = (step u (after u p) (.ask q.slot)).1 from after_concat u p _, keys_ask, hk]
  · exact fun slot asked querier hb hr => balance_of_refuses hb hr

def refusal : Except Error Json := .ok (.record [("viewing_key_error", .record [("msg", .text "wrong viewing key")])])

private theorem refuses_refusal : Refuses refusal := ⟨_, "wrong viewing key", rfl, rfl⟩

/-- A key is imported and asked with, and another one is imported before the answer comes. -/
def contest (u : Setup) (slot other : KeySlot) : List Event :=
  [.importKey slot (u.key 0), .ask slot, .importKey other (u.key 1)]

/-- A refusal empties the slot of its query and no other. -/
theorem refused_key_eviction_other_slot :
    let u := Setup.single ⟨"token", "hash", "TKN", 6⟩
    let es := contest u ⟨"token", "alice"⟩ ⟨"token", "bob"⟩
    let q : BalanceQuery := ⟨⟨"token", "alice"⟩, 6, ⟨"token", "hash"⟩, u.key 0, .balance "alice" (u.key 0), false⟩
    (after u es).queries[0]? = some q ∧ q.answered = false ∧ Refuses refusal ∧
      (after u es).keys.find? q.slot = some q.key ∧
      (step u (after u es) (.answer 0 refusal)).1.keys.find? q.slot = none ∧
      (step u (after u es) (.answer 0 refusal)).1.keys.find? ⟨"token", "bob"⟩ = some (u.key 1) := by
  intro u es q
  have hq : (after u es).queries[0]? = some q := by decide +kernel
  have hother : (after u es).keys.find? ⟨"token", "bob"⟩ = some (u.key 1) := by decide +kernel
  obtain ⟨_, hself, hframe⟩ := (refused_key_eviction u es 0 q refusal hq rfl).2.1 refuses_refusal
  refine ⟨hq, rfl, refuses_refusal, ?_, hself, ?_⟩
  · decide +kernel
  · exact (hframe _ (by decide)).trans hother

/-- A key that is imported while a query is pending goes with the refusal of the key that the query shows. -/
theorem refusal_evicts_newer_key :
    let u := Setup.single ⟨"token", "hash", "TKN", 6⟩
    let es := contest u ⟨"token", "alice"⟩ ⟨"token", "alice"⟩
    let q : BalanceQuery := ⟨⟨"token", "alice"⟩, 6, ⟨"token", "hash"⟩, u.key 0, .balance "alice" (u.key 0), false⟩
    (after u es).queries[0]? = some q ∧ q.answered = false ∧ Refuses refusal ∧
      (after u es).get q.slot = .ok (u.key 1) ∧ u.key 1 ≠ q.key ∧
      (step u (after u es) (.answer 0 refusal)).1.get q.slot = .error (.keyNotFound "token" "alice") :=
  ⟨by decide +kernel, rfl, refuses_refusal, by decide +kernel, by decide +kernel, by decide +kernel⟩

end LiquidityBook.Session
