import LiquidityBook.Proofs.Session.SingleFlight
import LiquidityBook.Proofs.Session.Submission

/-! How requests end. A request that has ended stays so, and its status tells which poll or drop of the run
ended it. -/
namespace LiquidityBook.Session
variable {u : Setup} {s s' : Session} {e : Event} {o : Observation} {id : Nat} {slot : KeySlot}
  {result : Except Error String}

/-- The run polled the request, and the poll showed this result. -/
def Returned (u : Setup) (es : List Event) (id : Nat) (result : Except Error String) : Prop :=
  ∃ p q, es = p ++ .poll id :: q ∧ (step u (after u p) (.poll id)).2 = .ended result

/-- The run dropped the request before it came to a result. -/
def GivenUp (u : Setup) (es : List Event) (id : Nat) : Prop :=
  ∃ p q, es = p ++ .drop id :: q ∧ (step u (after u p) (.drop id)).2 = .wasThere true

theorem statusOf?_eq_some_iff {status : Status} :
    s.statusOf? id = some status ↔ ∃ slot, s.tasks[id]? = some ⟨slot, status⟩ := by
  constructor
  · intro h
    obtain ⟨⟨slot, _⟩, ht, rfl⟩ := Option.map_eq_some_iff.1 h
    exact ⟨slot, ht⟩
  · rintro ⟨slot, ht⟩
    simp [statusOf?, ht]

theorem Advance.isLive {old new : Status} (h : Advance u s id slot e old new) : old.isLive := by
  cases h with
  | resolve h => cases h <;> rfl
  | join _ | lead _ | close _ => rfl
  | drop hl => exact hl

/-- A leader that is polled after its submission is settled comes to what the outcome amounts to. -/
theorem tasks_poll_of_settled {n epoch : Nat} {key : String} {outcome : Except Error TxResponse}
    (ht : s.tasks[id]? = some ⟨slot, .leading n epoch key⟩) (ho : s.outcomeOf? n = some outcome) :
    (step u s (.poll id)).1.tasks[id]? =
      some ⟨slot, .finished ((outcome.bind TxResponse.check).map fun _ => key)⟩ := by
  simp only [outcomeOf?] at ho
  simp only [step, poll, ht, ho, finishLeader, finish]
  exact tasks_setStatus_self ht

theorem Transition.ended_eq {t : Task} (h : Transition u s e s' o) (ht : s.tasks[id]? = some t)
    (hl : t.status.isLive = false) : s'.tasks[id]? = some t := by
  rcases h.task_cases id with hk | ⟨hn, _⟩ | ⟨_, _, _, hk, _, ha⟩
  · exact hk.trans ht
  · cases ht.symm.trans hn
  · cases ht.symm.trans hk
    exact absurd ha.isLive (by simp [hl])

theorem Transition.statusOf?_of_ended {status : Status} (h : Transition u s e s' o)
    (ht : s.statusOf? id = some status) (hl : status.isLive = false) : s'.statusOf? id = some status := by
  obtain ⟨slot, ht⟩ := statusOf?_eq_some_iff.1 ht
  exact statusOf?_eq_some_iff.2 ⟨slot, h.ended_eq ht hl⟩

/-- A request has the result that it had, or this poll showed it. -/
theorem Transition.finished_iff (h : Transition u s e s' o) :
    s'.statusOf? id = some (.finished result) ↔
      s.statusOf? id = some (.finished result) ∨ (e = .poll id ∧ o = .ended result) := by
  constructor
  · intro hf
    obtain ⟨slot, hf⟩ := statusOf?_eq_some_iff.1 hf
    rcases h.task_cases id with hk | ⟨_, _, _, hk⟩ | ⟨_, _, _, _, hk, ha⟩
    · exact .inl (statusOf?_eq_some_iff.2 ⟨slot, hk ▸ hf⟩)
    · cases hf.symm.trans hk
    · cases hf.symm.trans hk
      have he : e = .poll id := by cases ha <;> rfl
      subst he
      cases h with
      | idle _ => exact .inl (statusOf?_eq_some_iff.2 ⟨slot, hf⟩)
      | resolve ht _ =>
        cases hf.symm.trans (tasks_setStatus_self ht)
        exact .inr ⟨rfl, rfl⟩
      | join ht _ _ _ => cases hf.symm.trans (tasks_setStatus_self ht)
      | lead ht _ _ _ => cases hf.symm.trans (tasks_setStatus_self ht)
      | close ht _ =>
        cases hf.symm.trans (tasks_setStatus_self ht)
        exact .inr ⟨rfl, rfl⟩
  · rintro (hf | ⟨rfl, rfl⟩)
    · exact h.statusOf?_of_ended hf rfl
    · cases h with
      | idle hi => cases hi
      | resolve ht _ => exact statusOf?_eq_some_iff.2 ⟨_, tasks_setStatus_self ht⟩
      | close ht _ => exact statusOf?_eq_some_iff.2 ⟨_, tasks_setStatus_self ht⟩

private theorem Transition.dropped_iff (h : Transition u s e s' o) :
    s'.statusOf? id = some .dropped ↔
      s.statusOf? id = some .dropped ∨ (e = .drop id ∧ o = .wasThere true) := by
  constructor
  · intro hf
    obtain ⟨slot, hf⟩ := statusOf?_eq_some_iff.1 hf
    rcases h.task_cases id with hk | ⟨_, _, _, hk⟩ | ⟨_, _, _, hs, hk, ha⟩
    · exact .inl (statusOf?_eq_some_iff.2 ⟨slot, hk ▸ hf⟩)
    · cases hf.symm.trans hk
    · cases hf.symm.trans hk
      cases ha with
      | drop hl =>
        cases h with
        | idle hi =>
          cases hi with
          | notLive hn => exact absurd hl (by simpa using hn _ hs)
        | release _ | abandon _ _ _ => exact .inr ⟨rfl, rfl⟩
  · rintro (hf | ⟨rfl, rfl⟩)
    · exact h.statusOf?_of_ended hf rfl
    · cases h with
      | idle hi => cases hi
      | release ht => exact statusOf?_eq_some_iff.2 ⟨_, tasks_setStatus_self ht⟩
      | abandon ht _ _ => exact statusOf?_eq_some_iff.2 ⟨_, tasks_setStatus_self ht⟩

/-- The result that a request has is the one that a poll of the run showed. -/
theorem finished_iff_returned {es : List Event} :
    (after u es).statusOf? id = some (.finished result) ↔ Returned u es id result := by
  refine after_iff_shown ?_ (fun _ _ _ _ h => h.finished_iff) es
  simp [statusOf?, empty]

theorem dropped_iff_givenUp {es : List Event} : (after u es).statusOf? id = some .dropped ↔ GivenUp u es id := by
  refine after_iff_shown ?_ (fun _ _ _ _ h => h.dropped_iff) es
  simp [statusOf?, empty]

/-- No request both comes to a result and is given up, and none comes to two results. -/
theorem Returned.not_givenUp {es : List Event} (h : Returned u es id result) : ¬ GivenUp u es id := by
  intro hd
  cases (finished_iff_returned.2 h).symm.trans (dropped_iff_givenUp.2 hd)

end LiquidityBook.Session
