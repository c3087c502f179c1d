import LiquidityBook.Digits

/-! Unsigned integers of a fixed width, as token contracts hold amounts. A number that does not
fit is refused, never wrapped. -/
namespace LiquidityBook

/-- A natural number below `2 ^ bits`. -/
structure Uint (bits : Nat) where
  toNat : Nat
  isLt : toNat < 2 ^ bits
deriving DecidableEq

abbrev Uint128 := Uint 128
abbrev Uint256 := Uint 256

namespace Uint
variable {bits : Nat}

@[ext] theorem ext {a b : Uint bits} (h : a.toNat = b.toNat) : a = b := by
  cases a; cases b; cases h; rfl

def ofNat? (bits n : Nat) : Option (Uint bits) :=
  if h : n < 2 ^ bits then some ⟨n, h⟩ else none

/-- The number itself when it fits, and otherwise the largest one that does. -/
def clamp (bits n : Nat) : Uint bits :=
  ⟨min n (2 ^ bits - 1), by have := Nat.two_pow_pos bits; omega⟩

def zero : Uint bits := ⟨0, Nat.two_pow_pos bits⟩

instance : Inhabited (Uint bits) := ⟨zero⟩

def text (a : Uint bits) : String := a.toNat.repr

theorem value?_text (a : Uint bits) : Digits.value? a.text.toList = some a.toNat := by
  rw [text, Nat.toList_repr]
  exact Digits.value?_ofNat _

theorem ofNat?_toNat (a : Uint bits) : ofNat? bits a.toNat = some a := by
  simp [ofNat?, a.isLt]

theorem toNat_of_ofNat? {n : Nat} {a : Uint bits} (h : ofNat? bits n = some a) : a.toNat = n := by
  unfold ofNat? at h
  split at h
  · cases h; rfl
  · cases h

theorem ofNat?_eq_none_iff {n : Nat} : ofNat? bits n = none ↔ 2 ^ bits ≤ n := by
  simp [ofNat?]

theorem toNat_clamp {n : Nat} (h : n < 2 ^ bits) : (clamp bits n).toNat = n := by
  simp only [clamp]; omega

end Uint

end LiquidityBook
