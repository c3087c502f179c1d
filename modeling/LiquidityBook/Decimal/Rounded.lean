import LiquidityBook.Binary64.Basic
import LiquidityBook.Decimal.Basic

/-! Doubles and quotients as decimals. A double keeps about fifteen significant digits. -/
namespace LiquidityBook.Decimal

/-- A coefficient and a power of ten. -/
private structure Scaled where
  coefficient : Nat
  exponent : Int

/-- Trades `halvings` factors of one half for powers of ten: an even coefficient is halved, and an
odd one is multiplied by five as long as it fits in 96 bits and halved from then on. -/
private def unhalve : (halvings : Nat) → Scaled → Scaled
  | 0, s => s
  | n + 1, s =>
    if s.coefficient % 2 = 0 then unhalve n ⟨s.coefficient / 2, s.exponent + 1⟩
    else if 5 * s.coefficient < 2 ^ 96 then unhalve n ⟨5 * s.coefficient, s.exponent⟩
    else unhalve n ⟨s.coefficient / 2, s.exponent + 1⟩

/-- Drops the last digit, rounding half up. -/
private def dropDigit (s : Scaled) : Scaled :=
  ⟨s.coefficient / 10 + (if 5 ≤ s.coefficient % 10 then 1 else 0), s.exponent + 1⟩

/-- At most 28 fractional digits are left; a number below all of them is zero. -/
private def dropToScale : (fuel : Nat) → Scaled → Scaled
  | 0, s => s
  | fuel + 1, s =>
    if s.exponent < -28 then
      if s.coefficient / 10 = 0 then ⟨0, 0⟩ else dropToScale fuel (dropDigit s)
    else s

/-- The coefficient is below `2 ^ 52`, or there is no fractional digit left. -/
private def dropToSignificant : (fuel : Nat) → Scaled → Scaled
  | 0, s => s
  | fuel + 1, s =>
    if s.exponent < 0 ∧ 2 ^ 52 ≤ s.coefficient then dropToSignificant fuel (dropDigit s) else s

/-- No fractional digit at the end is zero. -/
private def dropZeros : (fuel : Nat) → Scaled → Scaled
  | 0, s => s
  | fuel + 1, s =>
    if s.exponent < 0 ∧ s.coefficient % 10 = 0 then dropZeros fuel ⟨s.coefficient / 10, s.exponent + 1⟩
    else s

/-- A finite double to about fifteen significant digits. -/
def ofFloat? (x : Float) : Option Decimal :=
  match Binary64.parts? x with
  | some (negative, .finite significand exponent) =>
    if significand = 0 then some zero
    else
      let fuel := exponent.natAbs
      let s := dropZeros 29 (dropToSignificant 29 (dropToScale fuel
        (unhalve (-exponent).toNat ⟨significand, exponent⟩)))
      let c : Int := if negative then -s.coefficient else s.coefficient
      ofParts? (c * 10 ^ s.exponent.toNat) (-s.exponent).toNat
  | _ => none

/-- A quotient of naturals to 28 fractional digits, a half going to the even neighbour, in its
shortest form. -/
def ofRatio (num den : Nat) : Decimal := (fit (divHalfEven (num * 10 ^ 28) den) 28).normalize

end LiquidityBook.Decimal
