import LiquidityBook.Proofs.Session.Veil
import Mathlib.Data.List.Forall2

/-! Viewing keys are not revealed. Two runs that differ only in their keys become the same run when the keys are
covered, so whatever they show differs only where a key itself is shown. -/
namespace LiquidityBook.Session
/-- The operations are the same, or they import two keys into one slot, both valid or both malformed. -/
inductive Event.SameButKey : Event → Event → Prop where
  | same (e : Event) : SameButKey e e
  | imported {slot key key'} (h : ViewingKey.isValid key = ViewingKey.isValid key') :
      SameButKey (.importKey slot key) (.importKey slot key')

/-- The operations show the same, or both hand out a key, or both send a query for the same address that shows a
key. -/
inductive Observation.SameButKey : Observation → Observation → Prop where
  | same (o : Observation) : SameButKey o o
  | ended (key key') : SameButKey (.ended (.ok key)) (.ended (.ok key'))
  | key (key key') : SameButKey (.key (.ok key)) (.key (.ok key'))
  | asked (address key key') :
      SameButKey (.asked (.ok (.balance address key))) (.asked (.ok (.balance address key')))

private theorem Event.SameButKey.veiled_eq {e e' : Event} (h : e.SameButKey e') : e.veiled = e'.veiled := by
  cases h with
  | same => rfl
  | imported h => simp only [Event.veiled, h]

private theorem covered_inj {result result' : Except Error String} (h : covered result = covered result') :
    result = result' ∨ ∃ key key', result = .ok key ∧ result' = .ok key' := by
  cases result with
  | error e =>
    cases result' with
    | error e' => exact .inl h
    | ok key' => cases h
  | ok key =>
    cases result' with
    | error e' => cases h
    | ok key' => exact .inr ⟨key, key', rfl, rfl⟩

private theorem msg_veiled_inj {msg msg' : QueryMsg} (h : msg.veiled = msg'.veiled) :
    msg = msg' ∨ ∃ address key key', msg = .balance address key ∧ msg' = .balance address key' := by
  cases msg with
  | balance address key =>
    cases msg' with
    | balance address' key' =>
      cases h
      exact .inr ⟨address, key, key', rfl, rfl⟩
    | _ => cases h
  | getLbPairInformation tokenA tokenB binStep =>
    cases msg' with
    | balance address' key' => cases h
    | _ => exact .inl h
  | getPreset binStep =>
    cases msg' with
    | balance address' key' => cases h
    | _ => exact .inl h

private theorem query_veiled_inj {query query' : Except Error QueryMsg}
    (h : query.map QueryMsg.veiled = query'.map QueryMsg.veiled) :
    query = query' ∨ ∃ address key key', query = .ok (.balance address key) ∧ query' = .ok (.balance address key') := by
  cases query with
  | error e =>
    cases query' with
    | error e' => exact .inl (congrArg Except.error (Except.error.inj h))
    | ok msg' => cases h
  | ok msg =>
    cases query' with
    | error e' => cases h
    | ok msg' =>
      rcases msg_veiled_inj (Except.ok.inj h) with rfl | ⟨address, key, key', rfl, rfl⟩
      · exact .inl rfl
      · exact .inr ⟨address, key, key', rfl, rfl⟩

private theorem Observation.sameButKey_of_veiled {o o' : Observation} (h : o.veiled = o'.veiled) : o.SameButKey o' := by
  cases o with
  | ended result =>
    cases o' with
    | ended result' =>
      rcases covered_inj (Observation.ended.inj h) with rfl | ⟨key, key', rfl, rfl⟩
      · exact .same _
      · exact .ended key key'
    | _ => cases h
  | key result =>
    cases o' with
    | key result' =>
      rcases covered_inj (Observation.key.inj h) with rfl | ⟨key, key', rfl, rfl⟩
      · exact .same _
      · exact .key key key'
    | _ => cases h
  | asked query =>
    cases o' with
    | asked query' =>
      rcases query_veiled_inj (Observation.asked.inj h) with rfl | ⟨address, key, key', rfl, rfl⟩
      · exact .same _
      · exact .asked address key key'
    | _ => cases h
  | _ =>
    -- Whatever else is shown holds no key and is the same.
    cases o' with
    | ended _ | key _ | asked _ => cases h
    | _ => cases h <;> exact .same _

private theorem run_veiled (u : Setup) (pre es : List Event) :
    run u.veiled (after u pre).veiled (es.map Event.veiled) =
      ((run u (after u pre) es).1.veiled, (run u (after u pre) es).2.map Observation.veiled) := by
  induction es generalizing pre with
  | nil => rfl
  | cons e es ih =>
    have hkeys : Keyed (after u pre) := fun _ _ h => isEmpty_of_cached h
    have hstep := ((step_transition u (after u pre) e).veiled hkeys).step_eq
    have hrest := ih (pre ++ [e])
    rw [after_concat] at hrest
    simp only [List.map_cons, run, hstep, hrest]

/-- Two runs of the same operations, with fresh keys of their own and with imported keys of their own, come to the same
state but for the keys and show the same but for the keys. -/
theorem run_sameButKey (u : Setup) (fresh : Nat → Vector UInt8 32) {es es' : List Event}
    (h : List.Forall₂ Event.SameButKey es es') :
    (run u empty es).1.veiled = (run (u.withKeys fresh) empty es').1.veiled ∧
      List.Forall₂ Observation.SameButKey (run u empty es).2 (run (u.withKeys fresh) empty es').2 := by
  have hcovered : es.map Event.veiled = es'.map Event.veiled := by
    rw [← List.forall₂_eq_eq_eq, List.forall₂_map_left_iff, List.forall₂_map_right_iff]
    exact h.imp fun _ _ => Event.SameButKey.veiled_eq
  have hrun : run u.veiled empty.veiled (es.map Event.veiled) = _ := run_veiled u [] es
  have hrun' : run u.veiled empty.veiled (es'.map Event.veiled) = _ := run_veiled (u.withKeys fresh) [] es'
  rw [hcovered, hrun', Prod.mk.injEq] at hrun
  obtain ⟨hstate, hseen⟩ := hrun
  refine ⟨hstate.symm, ?_⟩
  rw [← List.forall₂_eq_eq_eq, List.forall₂_map_left_iff, List.forall₂_map_right_iff] at hseen
  exact hseen.flip.imp fun _ _ h => Observation.sameButKey_of_veiled h.symm

/-- Neither errors nor states reveal viewing keys. Two runs of the same operations, with the same outcomes and answers,
may have different fresh keys and different imported keys: each operation shows the same error, state, count or balance
in both, and only where it hands out a key or sends one in a query may that key differ. Malformed keys are refused with
one and the same error, whatever they are and whatever the padding, and an import of one changes nothing. -/
theorem keys_not_revealed :
    (∀ (u : Setup) (fresh : Nat → Vector UInt8 32) (es es' : List Event), List.Forall₂ Event.SameButKey es es' →
      let r := run u empty es
      let r' := run (u.withKeys fresh) empty es'
      List.Forall₂ Observation.SameButKey r.2 r'.2 ∧ r.1.veiled = r'.1.veiled ∧
        ∀ slot, r.1.state slot = r'.1.state slot) ∧
    (∃ e, ∀ key padding : String, ¬ ViewingKey.isValid key → ExecuteMsg.ofViewingKey key padding = .error e) ∧
    ∀ (u : Setup) (s : Session) (slot : KeySlot), ∃ e, ∀ key : String, ¬ ViewingKey.isValid key →
      importKey u s slot key = (s, .error e) := by
  refine ⟨?_, ?_, ?_⟩
  · intro u fresh es es' h r r'
    obtain ⟨hstate, hseen⟩ := run_sameButKey u fresh h
    refine ⟨hseen, hstate, ?_⟩
    intro slot
    rw [← state_veiled, hstate, state_veiled]
  · exact ⟨.schemaViolation .malformedViewingKey, fun key padding hk => if_neg hk⟩
  · intro u s slot
    unfold importKey
    cases u.registry.get slot.token with
    | error e => exact ⟨e, fun _ _ => rfl⟩
    | ok token => exact ⟨.schemaViolation .malformedViewingKey, fun key hk => by simp [hk]⟩

/-- A key is imported, shown and asked with, and the contract refuses it; another slot is issued a key. -/
def mixedUse (key : String) : List Event :=
  [.importKey ⟨"token", "alice"⟩ key, .get ⟨"token", "alice"⟩, .ask ⟨"token", "alice"⟩, .start ⟨"token", "bob"⟩,
    .poll 0, .settle 0 accepted, .poll 0, .answer 0 refusal, .get ⟨"token", "alice"⟩]

theorem keys_not_revealed_mixed_use :
    let u := Setup.single ⟨"token", "hash", "TKN", 6⟩
    let fresh (n : Nat) := u.freshKey (n + 1)
    let r := run u empty (mixedUse (u.key 7))
    let r' := run (u.withKeys fresh) empty (mixedUse (u.key 8))
    List.Forall₂ Event.SameButKey (mixedUse (u.key 7)) (mixedUse (u.key 8)) ∧ r.2 ≠ r'.2 ∧
      List.Forall₂ Observation.SameButKey r.2 r'.2 ∧ ∀ slot, r.1.state slot = r'.1.state slot := by
  intro u fresh r r'
  have hes : List.Forall₂ Event.SameButKey (mixedUse (u.key 7)) (mixedUse (u.key 8)) := by
    refine .cons (.imported ?_) (List.forall₂_same.2 fun _ _ => .same _)
    rw [u.key_isValid, u.key_isValid]
  obtain ⟨hseen, _, hstate⟩ := keys_not_revealed.1 u fresh _ _ hes
  exact ⟨hes, by decide +kernel, hseen, hstate⟩

end LiquidityBook.Session
