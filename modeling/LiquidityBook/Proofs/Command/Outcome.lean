import LiquidityBook.Command.Run
import Mathlib.Data.List.Forall2

/-! How a command's steps succeed and fail, one after the other. -/
namespace LiquidityBook
variable {α β : Type}

/-- Where the step fails, it is in a way that is allowed. -/
def FailsOnly {ε α : Type} (allowed : ε → Prop) (x : Except ε α) : Prop := ∀ e, x = .error e → allowed e

namespace FailsOnly
variable {ε : Type} {allowed : ε → Prop} {x : Except ε α} {f : α → Except ε β} {e : ε}

theorem ok (a : α) : FailsOnly allowed (.ok a) := nofun

theorem error (h : allowed e) : FailsOnly allowed (.error e : Except ε α) := by
  intro e' he
  cases he
  exact h

theorem bind (hx : FailsOnly allowed x) (hf : ∀ a, x = .ok a → FailsOnly allowed (f a)) :
    FailsOnly allowed (x >>= f) := by
  cases x with
  | error e => exact error (hx e rfl)
  | ok a => exact hf a rfl

theorem mapM (hf : ∀ a, FailsOnly allowed (f a)) (as : List α) : FailsOnly allowed (as.mapM f) := by
  induction as with
  | nil => exact ok _
  | cons a as ih =>
    rw [List.mapM_cons]
    exact (hf a).bind fun _ _ => ih.bind fun _ _ => ok _

theorem when {allowed : Error → Prop} {e : Error} {p : Prop} [Decidable p] (h : p → allowed e) :
    FailsOnly allowed (e.when p) := by
  intro e' he
  obtain ⟨hp, rfl⟩ := Error.when_eq_error_iff.1 he
  exact h hp

end FailsOnly

namespace CommandError

theorem mapM_eq_ok_iff {f : α → Except CommandError β} {as : List α} {bs : List β} :
    as.mapM f = .ok bs ↔ List.Forall₂ (fun a b => f a = .ok b) as bs := by
  induction as generalizing bs with
  | nil => cases bs <;> simp [pure, Except.pure]
  | cons a as ih =>
    simp only [List.mapM_cons, Error.bind_eq_ok_iff, List.forall₂_cons_left_iff, ih]
    constructor
    · rintro ⟨b, hb, bs', hbs, h⟩
      cases h
      exact ⟨b, bs', hb, hbs, rfl⟩
    · rintro ⟨b, bs', hb, hbs, rfl⟩
      exact ⟨b, hb, bs', hbs, rfl⟩

end CommandError

namespace Command
variable {r : Except Error α} {a : α} {e : CommandError}

theorem ofClient_eq_ok_iff : ofClient r = .ok a ↔ r = .ok a := by
  cases r <;> simp [ofClient, Except.mapError]

private theorem ofClient_eq_error_iff : ofClient r = .error e ↔ ∃ cause, r = .error cause ∧ e = .client cause := by
  cases r <;> simp [ofClient, Except.mapError, eq_comm]

theorem failsOnly_ofClient {allowed : CommandError → Prop} (h : FailsOnly (fun cause => allowed (.client cause)) r) :
    FailsOnly allowed (ofClient r) := by
  intro e he
  obtain ⟨cause, hr, rfl⟩ := ofClient_eq_error_iff.1 he
  exact h cause hr

end Command

end LiquidityBook
