import LiquidityBook.Proofs.Session.History

/-! Where the cached keys come from. Only imports and leaders write them, and a key that is cached has
been written since its account was last disconnected. -/
namespace LiquidityBook

theorem TxResponse.isOk_check_iff {α : Type} (outcome : Except Error TxResponse) (a : α) :
    ((outcome.bind TxResponse.check).map fun _ => a).isOk ↔ ∃ r, outcome = .ok r ∧ r.code = 0 := by
  cases outcome with
  | error e => simp [Except.bind, Except.map, Except.isOk, Except.toBool]
  | ok r =>
    by_cases h : r.code = 0 <;> simp [Except.bind, Except.map, Except.isOk, Except.toBool, check, isSuccess, h]

namespace Session
variable {u : Setup} {s s' : Session} {e : Event} {o : Observation} {slot : KeySlot} {key : String}

/-- The operations that put a key into a slot: an accepted import, and the last poll of a leader that was
answered with the code zero in the epoch of its first poll. -/
inductive Writes (u : Setup) (s : Session) (slot : KeySlot) (key : String) : Event → Prop where
  | imported {token} (hr : u.registry.get slot.token = .ok token) (hv : ViewingKey.isValid key) :
      Writes u s slot key (.importKey slot key)
  | issued {id n r} (ht : s.tasks[id]? = some ⟨slot, .leading n (s.epoch slot.account) key⟩)
      (ho : s.outcomeOf? n = some (.ok r)) (hc : r.code = 0) : Writes u s slot key (.poll id)

theorem keys_finishLeader (s : Session) (id : Nat) (own : KeySlot) (epoch : Nat) (k : String)
    (outcome : Except Error TxResponse) :
    (s.finishLeader id own epoch k outcome).1.keys = s.keys ∨
      ((∃ r, outcome = .ok r ∧ r.code = 0) ∧ epoch = s.epoch own.account ∧
        (s.finishLeader id own epoch k outcome).1.keys = s.keys.insert own k) := by
  simp only [finishLeader, finish, setStatus]
  by_cases hk : ((outcome.bind TxResponse.check).map fun _ => k).isOk = true ∧ s.epoch own.account = epoch
  · have hr := (TxResponse.isOk_check_iff outcome k).1 hk.1
    exact .inr ⟨hr, hk.2.symm, if_pos (by simp [hk])⟩
  · exact .inl (if_neg (by simpa using hk))

/-- A cached key was written by the operation itself, or it was there and its account stays connected. -/
theorem Transition.key_cases (ht : Transition u s e s' o) (h : s'.keys.find? slot = some key) :
    Writes u s slot key e ∨ (s.keys.find? slot = some key ∧ e.disconnects slot.account = false) := by
  cases ht with
  | idle hi => exact .inr ⟨h, by cases hi <;> rfl⟩
  | @close id own n epoch k outcome ht ho =>
    rcases keys_finishLeader s id own epoch k outcome with hk | ⟨⟨r, rfl, hc⟩, rfl, hk⟩
    · exact .inr ⟨hk ▸ h, rfl⟩
    · rw [hk] at h
      by_cases hsl : own = slot
      · subst hsl
        rw [Table.find?_insert_self] at h
        cases h
        exact .inl (.issued ht ho hc)
      · rw [Table.find?_insert_of_ne _ _ hsl] at h
        exact .inr ⟨h, rfl⟩
  | @keep own k _ hr hv =>
    by_cases hsl : own = slot
    · subst hsl
      rw [Table.find?_insert_self] at h
      cases h
      exact .inl (.imported hr hv)
    · rw [Table.find?_insert_of_ne _ _ hsl] at h
      exact .inr ⟨h, rfl⟩
  | disconnect account =>
    have hf := Table.find?_filter s.keys (fun a => decide (a.account ≠ account)) slot
    simp only [Session.disconnect] at h
    rw [hf] at h
    split at h
    · rename_i hne
      exact .inr ⟨h, decide_eq_false (Ne.symm (of_decide_eq_true hne))⟩
    · cases h
  | @answer _ q raw _ _ =>
    refine .inr ⟨?_, rfl⟩
    rcases takeAnswer_eq s q raw with hk | hk
    · simpa [hk] using h
    · simp only [hk] at h
      by_cases hsl : q.slot = slot
      · subst hsl
        simp [Table.find?_erase_self] at h
      · rwa [Table.find?_erase_of_ne _ hsl] at h
  | _ => exact .inr ⟨h, rfl⟩

/-- A poll changes the cache only for a leader that is in step with its account's epoch. -/
theorem Transition.keys_poll {id : Nat} (ht : Transition u s (.poll id) s' o) :
    s'.keys = s.keys ∨ ∃ own n k, s.tasks[id]? = some ⟨own, .leading n (s.epoch own.account) k⟩ ∧
      s'.keys = s.keys.insert own k := by
  cases ht with
  | @close _ own n epoch k outcome hl _ =>
    rcases keys_finishLeader s id own epoch k outcome with hk | ⟨_, rfl, hk⟩
    · exact .inl hk
    · exact .inr ⟨own, n, k, hl, hk⟩
  | _ => exact .inl rfl

/-- A key that is cached after a run was cached when the run began or was written in it, and its account
was not disconnected since. -/
theorem key_run {es : List Event} (h : (run u s es).1.keys.find? slot = some key) :
    (s.keys.find? slot = some key ∧ ∀ e ∈ es, e.disconnects slot.account = false) ∨
      ∃ p e q, es = p ++ e :: q ∧ Writes u (run u s p).1 slot key e ∧
        ∀ e ∈ q, e.disconnects slot.account = false := by
  induction es using List.reverseRecOn with
  | nil => exact .inl ⟨h, by simp⟩
  | append_singleton es e ih =>
    rw [run_concat] at h
    rcases (step_transition u _ e).key_cases h with hw | ⟨hk, hd⟩
    · exact .inr ⟨es, e, [], rfl, hw, by simp⟩
    · rcases ih hk with ⟨hs, hc⟩ | ⟨p, e', q, rfl, hw, hc⟩
      · exact .inl ⟨hs, by simpa [or_imp, forall_and, hd] using hc⟩
      · exact .inr ⟨p, e', q ++ [e], by simp, hw, by simpa [or_imp, forall_and, hd] using hc⟩

private theorem Transition.keys_nodup (ht : Transition u s e s' o) (h : (s.keys.map (·.1)).Nodup) :
    (s'.keys.map (·.1)).Nodup := by
  cases ht with
  | @close id own _ epoch k outcome _ _ =>
    rcases keys_finishLeader s id own epoch k outcome with hk | ⟨_, _, hk⟩
    · exact hk ▸ h
    · exact hk ▸ Table.nodup_insert h own k
  | keep _ _ => exact Table.nodup_insert h _ _
  | disconnect account => exact Table.nodup_filter h _
  | @answer _ q raw _ _ =>
    change ((takeAnswer s q raw).1.keys.map (·.1)).Nodup
    rcases takeAnswer_eq s q raw with hk | hk
    · rwa [hk]
    · rw [hk]
      exact Table.nodup_filter h _
  | _ => exact h

theorem keys_nodup_after (u : Setup) (es : List Event) : ((after u es).keys.map (·.1)).Nodup :=
  after_induction .nil (fun _ _ _ _ h ht => ht.keys_nodup h) es

end Session

end LiquidityBook
