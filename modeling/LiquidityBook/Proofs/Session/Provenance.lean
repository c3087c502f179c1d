import LiquidityBook.Proofs.Session.Cache
import LiquidityBook.Proofs.Session.Submission

/-! Every cached key can be traced back to the operation that wrote it: an import for that very slot, or the last
poll of a leader whose own submission carried the key and succeeded. Nothing else writes. -/
namespace LiquidityBook.Session
variable {u : Setup} {s s' : Session} {e : Event} {o : Observation} {slot : KeySlot} {key : String}

theorem Writes.find?_step (h : Writes u s slot key e) : (step u s e).1.keys.find? slot = some key := by
  cases h with
  | imported hr hv =>
    simp only [step, importKey, hr, hv, if_true]
    exact Table.find?_insert_self ..
  | @issued id n r ht ho hc =>
    have hk : (((Except.ok r : Except Error TxResponse).bind TxResponse.check).map fun _ => key).isOk :=
      (TxResponse.isOk_check_iff _ key).2 ⟨r, rfl, hc⟩
    simp only [outcomeOf?] at ho
    simp only [step, poll, ht, ho, finishLeader, finish, setStatus, hk, beq_self_eq_true, Bool.and_self, if_true]
    exact Table.find?_insert_self ..

/-- An operation writes the slot, or the slot stands as it stood, or its key is gone. -/
theorem write_cases (u : Setup) (s : Session) (e : Event) (slot : KeySlot) :
    (∃ key, Writes u s slot key e ∧ (step u s e).1.keys.find? slot = some key) ∨
      ((∀ key, ¬ Writes u s slot key e) ∧
        ((step u s e).1.keys.find? slot = s.keys.find? slot ∨ (step u s e).1.keys.find? slot = none)) := by
  by_cases hw : ∃ key, Writes u s slot key e
  · obtain ⟨key, hw⟩ := hw
    exact .inl ⟨key, hw, hw.find?_step⟩
  · have hn : ∀ key, ¬ Writes u s slot key e := fun key h => hw ⟨key, h⟩
    refine .inr ⟨hn, ?_⟩
    cases hk : (step u s e).1.keys.find? slot with
    | none => exact .inr rfl
    | some key =>
      rcases (step_transition u s e).key_cases hk with h | ⟨h, _⟩
      · exact absurd h (hn key)
      · exact .inl h.symm

def Unwritten (u : Setup) (s : Session) (slot : KeySlot) (es : List Event) : Prop :=
  ∀ p e q, es = p ++ e :: q → ∀ key, ¬ Writes u (run u s p).1 slot key e

private theorem unwritten_concat {es : List Event} (h : Unwritten u s slot es)
    (he : ∀ key, ¬ Writes u (run u s es).1 slot key e) : Unwritten u s slot (es ++ [e]) := by
  intro p e' q hs key hw
  rcases (exists_split_concat (P := fun p _ => Writes u (run u s p).1 slot key e')).1 ⟨p, q, hs, hw⟩ with
    ⟨p, q, hs, hw⟩ | ⟨rfl, hw⟩
  · exact h p e' q hs key hw
  · exact he key hw

/-- A key that is cached after a run was there before it, or it is what the last write of the run wrote. -/
theorem last_write {es : List Event} (h : (run u s es).1.keys.find? slot = some key) :
    s.keys.find? slot = some key ∨
      ∃ p e q, es = p ++ e :: q ∧ Writes u (run u s p).1 slot key e ∧
        Unwritten u (run u s (p ++ [e])).1 slot q := by
  induction es using List.reverseRecOn with
  | nil => exact .inl h
  | append_singleton es e ih =>
    rw [run_concat] at h
    rcases write_cases u (run u s es).1 e slot with ⟨k, hw, hk⟩ | ⟨hn, hk | hk⟩
    · cases h.symm.trans hk
      exact .inr ⟨es, e, [], rfl, hw, by simp [Unwritten]⟩
    · rcases ih (hk ▸ h) with hs | ⟨p, e', q, rfl, hw, hq⟩
      · exact .inl hs
      · refine .inr ⟨p, e', q ++ [e], by simp, hw, unwritten_concat hq ?_⟩
        rwa [← run_append, List.append_assoc]
    · cases h.symm.trans hk

/-- How the run wrote the key that the slot holds now. It was imported; or it is the fresh key of a request that
found the slot free at its first poll, submitted the key from the account of the slot to the contract of its token,
and was polled again when the chain had answered that submission with the code zero and the account was in the same
epoch. Nothing has written the slot since. -/
inductive LastWrite (u : Setup) (slot : KeySlot) : String → List Event → Prop where
  | imported {p q key} (hi : (importKey u (after u p) slot key).2 = .ok ())
      (hq : Unwritten u (after u (p ++ [.importKey slot key])) slot q) :
      LastWrite u slot key (p ++ .importKey slot key :: q)
  | issued {p m q id n epoch token r} (hf : (after u p).tasks[id]? = some ⟨slot, .fresh⟩)
      (hn : (after u p).submissions.length = n) (he : (after u p).epoch slot.account = epoch)
      (hr : u.registry.get slot.token = .ok token)
      (hs : (after u (p ++ .poll id :: m)).requestOf? n =
        some ⟨slot.account, token.contract, .setViewingKey (u.key n) u.padding, u.gasLimit⟩)
      (hl : (after u (p ++ .poll id :: m)).tasks[id]? = some ⟨slot, .leading n epoch (u.key n)⟩)
      (ho : (after u (p ++ .poll id :: m)).outcomeOf? n = some (.ok r)) (hc : r.code = 0)
      (he' : (after u (p ++ .poll id :: m)).epoch slot.account = epoch)
      (hq : Unwritten u (after u ((p ++ .poll id :: m) ++ [.poll id])) slot q) :
      LastWrite u slot (u.key n) ((p ++ .poll id :: m) ++ .poll id :: q)

theorem lastWrite_of_cached {es : List Event} (h : (after u es).keys.find? slot = some key) :
    LastWrite u slot key es := by
  rcases last_write h with h | ⟨p, e, q, rfl, hw, hq⟩
  · cases h
  · cases hw with
    | imported hr hv => exact .imported (by simp only [importKey, hr, hv, if_true]) hq
    | @issued id n r ht ho hc =>
      rcases leading_run ht with h | ⟨p, m, rfl, hf, hl, he⟩
      · cases h
      · rw [run_concat] at hl
        obtain ⟨hn, _, rfl, token, hr, _, _, hs⟩ := (step_transition u _ (.poll id)).led hf hl
        refine .issued hf hn.symm he.symm hr ?_ ht ho hc rfl hq
        have hreq : (after u (p ++ [.poll id])).requestOf? n = some (u.issuance token slot.account n) := by
          rw [after_concat, requestOf?, after, hs, hn]
          simp
        have hrun := requestOf?_run u m hreq
        rwa [after, ← run_append, List.append_assoc] at hrun

private theorem LastWrite.registered {es : List Event} (h : LastWrite u slot key es) :
    ∃ token, u.registry.get slot.token = .ok token := by
  cases h with
  | imported hi _ =>
    simp only [importKey] at hi
    split at hi
    · cases hi
    · exact ⟨_, ‹_›⟩
  | issued _ _ _ hr _ _ _ _ _ _ => exact ⟨_, hr⟩

theorem LastWrite.isValid {es : List Event} (h : LastWrite u slot key es) : ViewingKey.isValid key := by
  cases h with
  | imported hi _ =>
    simp only [importKey] at hi
    split at hi
    · cases hi
    · split at hi
      · assumption
      · cases hi
  | issued _ _ _ _ _ _ _ _ _ _ => exact u.key_isValid _

/-- In every state that a run can reach, each cached key is of 64 hexadecimal characters, its token is registered,
and it was last written by an import for its slot or by the leader of its slot whose submission carried it. An
operation that is neither of the two leaves the slot's key as it is or takes it away. -/
theorem cache_provenance (u : Setup) (es : List Event) :
    let s := after u es
    (∀ slot key, (slot, key) ∈ s.keys →
      (∃ token, u.registry.get slot.token = .ok token) ∧
      (key.length = 64 ∧ ∀ c ∈ key.toList, Hex.isDigit c) ∧ LastWrite u slot key es) ∧
    ∀ e slot, (∃ key, Writes u s slot key e ∧ (step u s e).1.keys.find? slot = some key) ∨
      ((∀ key, ¬ Writes u s slot key e) ∧
        ((step u s e).1.keys.find? slot = s.keys.find? slot ∨ (step u s e).1.keys.find? slot = none)) := by
  intro s
  refine ⟨?_, write_cases u s⟩
  intro slot key hm
  have hw : LastWrite u slot key es := lastWrite_of_cached (Table.find?_eq_some_of_mem (keys_nodup_after u es) hm)
  refine ⟨hw.registered, ?_, hw⟩
  simpa [ViewingKey.isValid] using hw.isValid

end LiquidityBook.Session
