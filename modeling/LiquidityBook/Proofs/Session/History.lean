import LiquidityBook.Proofs.Session.Transition
import Mathlib.Data.List.Induction

/-! Runs of a session and where its state comes from: which poll made a request the leader it is, and
how the disconnections of an account are counted. -/
namespace LiquidityBook.Session
variable {u : Setup} {s s' : Session} {e : Event} {o : Observation} {id : Nat} {slot : KeySlot}

def after (u : Setup) (es : List Event) : Session := (run u empty es).1

theorem run_append (u : Setup) (s : Session) (es fs : List Event) :
    (run u s (es ++ fs)).1 = (run u (run u s es).1 fs).1 := by
  induction es generalizing s with
  | nil => rfl
  | cons e es ih => exact ih (step u s e).1

theorem run_concat (u : Setup) (s : Session) (es : List Event) (e : Event) :
    (run u s (es ++ [e])).1 = (step u (run u s es).1 e).1 := run_append u s es [e]

theorem after_concat (u : Setup) (es : List Event) (e : Event) :
    after u (es ++ [e]) = (step u (after u es) e).1 := run_concat u empty es e

theorem exists_split_concat {α : Type} {l : List α} {a b : α} {P : List α → List α → Prop} :
    (∃ p q, l ++ [a] = p ++ b :: q ∧ P p q) ↔ (∃ p q, l = p ++ b :: q ∧ P p (q ++ [a])) ∨ (a = b ∧ P l []) := by
  constructor
  · rintro ⟨p, q, hs, hp⟩
    rcases List.eq_nil_or_concat q with rfl | ⟨q, c, rfl⟩
    · obtain ⟨rfl, hc⟩ := List.append_inj' hs rfl
      cases hc
      exact .inr ⟨rfl, hp⟩
    · rw [List.concat_eq_append] at hs hp
      rw [← List.cons_append, ← List.append_assoc] at hs
      obtain ⟨rfl, hc⟩ := List.append_inj' hs rfl
      cases hc
      exact .inl ⟨p, q, rfl, hp⟩
  · rintro (⟨p, q, rfl, hp⟩ | ⟨rfl, hp⟩)
    · exact ⟨p, q ++ [a], by simp, hp⟩
    · exact ⟨l, [], rfl, hp⟩

/-- What every transition keeps is kept by every run. -/
theorem run_induction {P : Session → Prop} (hs : ∀ s e s' o, P s → Transition u s e s' o → P s') (h : P s)
    (es : List Event) : P (run u s es).1 := by
  induction es using List.reverseRecOn with
  | nil => exact h
  | append_singleton es e ih =>
    rw [run_concat]
    exact hs _ e _ _ ih (step_transition u _ e)

/-- What holds of a new session and is kept by every transition holds after every run. -/
theorem after_induction {P : Session → Prop} (h0 : P empty)
    (hs : ∀ s e s' o, P s → Transition u s e s' o → P s') (es : List Event) : P (after u es) :=
  run_induction hs h0 es

/-- What only an operation that shows a certain observation brings about holds after a run exactly if the run shows
it. -/
theorem after_iff_shown {P : Session → Prop} (h0 : ¬ P empty)
    (hs : ∀ s d s' o', Transition u s d s' o' → (P s' ↔ P s ∨ (d = e ∧ o' = o))) (es : List Event) :
    P (after u es) ↔ ∃ p q, es = p ++ e :: q ∧ (step u (after u p) e).2 = o := by
  induction es using List.reverseRecOn with
  | nil =>
    refine iff_of_false h0 ?_
    rintro ⟨p, q, hn, _⟩
    cases p <;> cases hn
  | append_singleton es d ih =>
    rw [after_concat, hs _ d _ _ (step_transition u _ d), ih, exists_split_concat]
    refine or_congr_right (and_congr_right ?_)
    rintro rfl
    rfl

theorem tasks_setStatus_self {old new : Status} (ht : s.tasks[id]? = some ⟨slot, old⟩) :
    (s.setStatus id new).tasks[id]? = some ⟨slot, new⟩ := by
  simp [setStatus, ht]

theorem tasks_setStatus_of_ne {i j : Nat} {new : Status} (h : i ≠ j) :
    (s.setStatus i new).tasks[j]? = s.tasks[j]? := by
  simp [setStatus, h]

theorem tasks_start (s : Session) (new : KeySlot) (i : Nat) :
    (s.start new).tasks[i]? = s.tasks[i]? ∨
      (s.tasks[i]? = none ∧ (s.start new).tasks[i]? = some ⟨new, .fresh⟩) := by
  rcases Nat.lt_trichotomy i s.tasks.length with h | rfl | h
  · exact .inl (List.getElem?_append_left h)
  · exact .inr ⟨List.getElem?_eq_none (Nat.le_refl _), by simp [start]⟩
  · have ht : s.tasks[i]? = none := List.getElem?_eq_none (by omega)
    have hs : (s.start new).tasks[i]? = none := List.getElem?_eq_none (by simp [start]; omega)
    exact .inl (hs.trans ht.symm)

/-- An answer touches nothing but the keys, of which it takes out at most the one of its slot. -/
theorem takeAnswer_eq (s : Session) (q : BalanceQuery) (raw : Except Error Json) :
    (takeAnswer s q raw).1 = s ∨ (takeAnswer s q raw).1 = { s with keys := s.keys.erase q.slot } := by
  unfold takeAnswer
  repeat' split
  all_goals simp

@[simp] theorem takeAnswer_tasks (s : Session) (q : BalanceQuery) (raw : Except Error Json) :
    (takeAnswer s q raw).1.tasks = s.tasks := by
  rcases takeAnswer_eq s q raw with h | h <;> rw [h]

@[simp] theorem takeAnswer_inFlight (s : Session) (q : BalanceQuery) (raw : Except Error Json) :
    (takeAnswer s q raw).1.inFlight = s.inFlight := by
  rcases takeAnswer_eq s q raw with h | h <;> rw [h]

@[simp] theorem takeAnswer_epochs (s : Session) (q : BalanceQuery) (raw : Except Error Json) :
    (takeAnswer s q raw).1.epochs = s.epochs := by
  rcases takeAnswer_eq s q raw with h | h <;> rw [h]

@[simp] theorem takeAnswer_queries (s : Session) (q : BalanceQuery) (raw : Except Error Json) :
    (takeAnswer s q raw).1.queries = s.queries := by
  rcases takeAnswer_eq s q raw with h | h <;> rw [h]

/-- A query shows the key that its slot holds. -/
theorem balanceQuery_eq_ok (h : balanceQuery u s slot = .ok q) :
    q.slot = slot ∧ q.answered = false ∧ s.keys.find? slot = some q.key := by
  simp only [balanceQuery, Error.bind_eq_ok_iff] at h
  obtain ⟨token, _, key, hk, msg, _, hq⟩ := h
  cases hq
  refine ⟨rfl, rfl, ?_⟩
  simp only [get] at hk
  split at hk
  · cases hk
    assumption
  · cases hk

/-- How a poll or a drop moves the request that it is about. -/
inductive Advance (u : Setup) (s : Session) (id : Nat) (slot : KeySlot) : Event → Status → Status → Prop where
  | resolve {status result} (h : Resolves u s slot status result) :
      Advance u s id slot (.poll id) status (.finished result)
  | join {leader} (hf : s.inFlight.find? slot = some leader) :
      Advance u s id slot (.poll id) .fresh (.waiting leader)
  | lead (hf : s.inFlight.find? slot = none) :
      Advance u s id slot (.poll id) .fresh
        (.leading s.submissions.length (s.epoch slot.account) (u.key s.submissions.length))
  | close {n epoch key outcome} (ho : s.outcomeOf? n = some outcome) :
      Advance u s id slot (.poll id) (.leading n epoch key)
        (.finished ((outcome.bind TxResponse.check).map fun _ => key))
  | drop {status} (hl : status.isLive) : Advance u s id slot (.drop id) status .dropped

/-- A request stands as it stood, or it was just started, or it was polled or dropped itself. -/
theorem Transition.task_cases (h : Transition u s e s' o) (id : Nat) :
    s'.tasks[id]? = s.tasks[id]? ∨
      (s.tasks[id]? = none ∧ ∃ slot, e = .start slot ∧ s'.tasks[id]? = some ⟨slot, .fresh⟩) ∨
      ∃ slot old new, s.tasks[id]? = some ⟨slot, old⟩ ∧ s'.tasks[id]? = some ⟨slot, new⟩ ∧
        Advance u s id slot e old new := by
  have moved {i : Nat} {slot : KeySlot} {old new : Status} (ht : s.tasks[i]? = some ⟨slot, old⟩)
      (ha : Advance u s i slot e old new) (hs : s'.tasks = (s.setStatus i new).tasks) :
      s'.tasks[id]? = s.tasks[id]? ∨ ∃ slot old new, s.tasks[id]? = some ⟨slot, old⟩ ∧
        s'.tasks[id]? = some ⟨slot, new⟩ ∧ Advance u s id slot e old new := by
    rw [hs]
    by_cases hi : i = id
    · subst hi
      exact .inr ⟨slot, old, new, ht, tasks_setStatus_self ht, ha⟩
    · exact .inl (tasks_setStatus_of_ne hi)
  cases h with
  | idle _ | settle _ _ | keep _ _ | disconnect _ | ask _ => exact .inl rfl
  | answer _ _ => exact .inl (by simp)
  | start slot =>
    rcases tasks_start s slot id with ht | ⟨hn, ht⟩
    · exact .inl ht
    · exact .inr (.inl ⟨hn, slot, rfl, ht⟩)
  | resolve ht h => exact (moved ht (.resolve h) rfl).imp_right .inr
  | join ht _ _ hf => exact (moved ht (.join hf) rfl).imp_right .inr
  | lead ht _ _ hf => exact (moved ht (.lead hf) rfl).imp_right .inr
  | close ht ho => exact (moved ht (.close ho) rfl).imp_right .inr
  | release ht => exact (moved ht (.drop rfl) rfl).imp_right .inr
  | abandon ht hl _ => exact (moved ht (.drop hl) rfl).imp_right .inr

/-- A leader has led before, or it has just taken its slot with its first poll. -/
theorem Transition.leading_cases {n epoch : Nat} {key : String} (h : Transition u s e s' o)
    (ht : s'.tasks[id]? = some ⟨slot, .leading n epoch key⟩) :
    s.tasks[id]? = some ⟨slot, .leading n epoch key⟩ ∨
      (e = .poll id ∧ s.tasks[id]? = some ⟨slot, .fresh⟩ ∧ epoch = s.epoch slot.account) := by
  rcases h.task_cases id with hs | ⟨_, _, _, hs⟩ | ⟨_, _, _, hs, hs', ha⟩
  · exact .inl (hs ▸ ht)
  · cases ht.symm.trans hs
  · cases ht.symm.trans hs'
    cases ha
    exact .inr ⟨rfl, hs, rfl⟩

private theorem Transition.polled {old : Status} (h : Transition u s e s' o)
    (ht : s.tasks[id]? = some ⟨slot, old⟩) (hf : old ≠ .fresh) :
    ∃ new, s'.tasks[id]? = some ⟨slot, new⟩ ∧ new ≠ .fresh := by
  rcases h.task_cases id with hs | ⟨hs, _⟩ | ⟨_, _, new, hs, hs', ha⟩
  · exact ⟨old, hs.trans ht, hf⟩
  · cases ht.symm.trans hs
  · cases ht.symm.trans hs
    exact ⟨new, hs', by cases ha <;> nofun⟩

def Event.disconnects (account : String) : Event → Bool
  | .disconnect a => a = account
  | _ => false

/-- An account's epoch goes up when it is disconnected, and at no other time. -/
theorem Transition.epoch_eq (h : Transition u s e s' o) (account : String) :
    s'.epoch account = s.epoch account + if e.disconnects account then 1 else 0 := by
  cases h with
  | idle h => cases h <;> rfl
  | disconnect a =>
    by_cases ha : a = account
    · subst ha
      simp [Event.disconnects, epoch, Session.disconnect, Table.find?_insert_self]
    · simp [Event.disconnects, epoch, Session.disconnect, Table.find?_insert_of_ne _ _ ha, ha]
  | answer _ _ => simp [Event.disconnects, epoch]
  | _ => rfl

/-- An account's epoch counts its disconnections. -/
theorem epoch_run (u : Setup) (s : Session) (es : List Event) (account : String) :
    (run u s es).1.epoch account = s.epoch account + es.countP (·.disconnects account) := by
  induction es using List.reverseRecOn with
  | nil => rfl
  | append_singleton es e ih =>
    rw [run_concat, (step_transition u _ e).epoch_eq, ih, List.countP_append, List.countP_singleton,
      Nat.add_assoc]

theorem polled_run {old : Status} (u : Setup) (es : List Event) (ht : s.tasks[id]? = some ⟨slot, old⟩)
    (hf : old ≠ .fresh) : ∃ new, (run u s es).1.tasks[id]? = some ⟨slot, new⟩ ∧ new ≠ .fresh := by
  induction es using List.reverseRecOn with
  | nil => exact ⟨old, ht, hf⟩
  | append_singleton es e ih =>
    obtain ⟨_, hs, hn⟩ := ih
    rw [run_concat]
    exact (step_transition u _ e).polled hs hn

/-- A leader led when the run began, or it took its slot with its first poll in the run. -/
theorem leading_run {n epoch : Nat} {key : String} {es : List Event}
    (h : (run u s es).1.tasks[id]? = some ⟨slot, .leading n epoch key⟩) :
    s.tasks[id]? = some ⟨slot, .leading n epoch key⟩ ∨
      ∃ p m, es = p ++ .poll id :: m ∧ (run u s p).1.tasks[id]? = some ⟨slot, .fresh⟩ ∧
        (run u s (p ++ [.poll id])).1.tasks[id]? = some ⟨slot, .leading n epoch key⟩ ∧
        epoch = (run u s p).1.epoch slot.account := by
  induction es using List.reverseRecOn with
  | nil => exact .inl h
  | append_singleton es e ih =>
    have hc := h
    rw [run_concat] at hc
    rcases (step_transition u _ e).leading_cases hc with hc | ⟨rfl, hf, he⟩
    · rcases ih hc with hs | ⟨p, m, rfl, hf, hl, he⟩
      · exact .inl hs
      · exact .inr ⟨p, m ++ [e], by simp, hf, hl, he⟩
    · exact .inr ⟨es, [], rfl, hf, h, he⟩

/-- No leader knows an epoch that its account has not reached. -/
theorem epoch_le_of_leading {n epoch : Nat} {key : String} {es : List Event}
    (h : (after u es).tasks[id]? = some ⟨slot, .leading n epoch key⟩) :
    epoch ≤ (after u es).epoch slot.account := by
  rcases leading_run h with h | ⟨p, m, rfl, _, _, rfl⟩
  · cases h
  · rw [after, run_append, epoch_run u (run u empty p).1]
    exact Nat.le_add_right _ _

end LiquidityBook.Session
