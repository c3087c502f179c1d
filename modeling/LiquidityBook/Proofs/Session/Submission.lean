import LiquidityBook.Proofs.Session.History

/-! The first poll of a request, and the submission it makes if the request comes to lead. What was submitted
stays as it was, and only a settlement gives it an outcome. -/
namespace LiquidityBook.Session
variable {u : Setup} {s s' : Session} {e : Event} {o : Observation} {id n : Nat} {slot : KeySlot}

/-- What the submission of that number handed to the broadcaster. -/
def requestOf? (s : Session) (n : Nat) : Option TxRequest := (s.submissions[n]?).map Submission.request

@[simp] theorem takeAnswer_submissions (s : Session) (q : BalanceQuery) (raw : Except Error Json) :
    (takeAnswer s q raw).1.submissions = s.submissions := by
  rcases takeAnswer_eq s q raw with h | h <;> rw [h]

/-- A request that comes to lead with its first poll found its slot without a key and without a leader. It
submits the next fresh key, from its account to the contract of its token. -/
theorem Transition.led {epoch : Nat} {key : String} (h : Transition u s (.poll id) s' o)
    (hf : s.tasks[id]? = some ⟨slot, .fresh⟩) (hl : s'.tasks[id]? = some ⟨slot, .leading n epoch key⟩) :
    n = s.submissions.length ∧ epoch = s.epoch slot.account ∧ key = u.key n ∧
      ∃ token, u.registry.get slot.token = .ok token ∧ s.keys.find? slot = none ∧
        s.inFlight.find? slot = none ∧
        s'.submissions = s.submissions ++ [⟨u.issuance token slot.account n, none⟩] := by
  cases h with
  | idle _ => cases hf.symm.trans hl
  | resolve ht _ => cases hl.symm.trans (tasks_setStatus_self ht)
  | join ht _ _ _ => cases hl.symm.trans (tasks_setStatus_self ht)
  | lead ht hr hk hi =>
    cases hf.symm.trans ht
    cases hl.symm.trans (tasks_setStatus_self ht)
    exact ⟨rfl, rfl, rfl, _, hr, hk, hi, rfl⟩
  | close ht _ => cases hf.symm.trans ht

private theorem Transition.requestOf?_eq {request : TxRequest} (h : Transition u s e s' o)
    (hr : s.requestOf? n = some request) : s'.requestOf? n = some request := by
  cases h with
  | lead _ _ _ _ =>
    obtain ⟨b, hb, rfl⟩ := Option.map_eq_some_iff.1 hr
    have hlt : n < s.submissions.length := (List.getElem?_eq_some_iff.1 hb).1
    simp only [requestOf?]
    rw [List.getElem?_append_left hlt, hb]
    rfl
  | settle m outcome =>
    obtain ⟨b, hb, rfl⟩ := Option.map_eq_some_iff.1 hr
    by_cases hm : m = n <;> simp [requestOf?, Session.settle, hb, hm]
  | answer _ _ => simpa [requestOf?] using hr
  | _ => exact hr

theorem outcomeOf?_of_submissions {request : TxRequest} (h : s'.submissions = s.submissions ++ [⟨request, none⟩])
    (n : Nat) : s'.outcomeOf? n = s.outcomeOf? n := by
  simp only [outcomeOf?, h]
  rcases Nat.lt_trichotomy n s.submissions.length with hn | rfl | hn
  · rw [List.getElem?_append_left hn]
  · simp
  · rw [List.getElem?_eq_none (by simp; omega), List.getElem?_eq_none (by omega)]

private theorem Transition.outcome_cases {outcome : Except Error TxResponse} (h : Transition u s e s' o)
    (ho : s'.outcomeOf? n = some outcome) : s.outcomeOf? n = some outcome ∨ e = .settle n outcome := by
  cases h with
  | lead _ _ _ _ =>
    rw [outcomeOf?_of_submissions rfl] at ho
    exact .inl ho
  | settle m outcome' =>
    by_cases hm : m = n
    · subst hm
      cases hb : s.submissions[m]? <;> simp_all [outcomeOf?, Session.settle]
    · refine .inl ?_
      simpa [outcomeOf?, Session.settle, hm] using ho
  | answer _ _ => exact .inl (by simpa [outcomeOf?] using ho)
  | _ => exact .inl ho

theorem requestOf?_run {request : TxRequest} (u : Setup) (es : List Event) (h : s.requestOf? n = some request) :
    (run u s es).1.requestOf? n = some request :=
  run_induction (fun _ _ _ _ hr ht => ht.requestOf?_eq hr) h es

/-- An outcome was there when the run began or was given in it. -/
theorem outcome_run {outcome : Except Error TxResponse} {es : List Event}
    (h : (run u s es).1.outcomeOf? n = some outcome) :
    s.outcomeOf? n = some outcome ∨ .settle n outcome ∈ es := by
  induction es using List.reverseRecOn with
  | nil => exact .inl h
  | append_singleton es e ih =>
    rw [run_concat] at h
    rcases (step_transition u _ e).outcome_cases h with h | rfl
    · exact (ih h).imp_right (List.mem_append_left _)
    · exact .inr (by simp)

end LiquidityBook.Session
