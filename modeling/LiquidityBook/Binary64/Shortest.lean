import LiquidityBook.Binary64.Basic

/-! The fewest decimal digits that stand for a double alone, nearest to it among those. Of two that
are equally near, the writer of a format chooses. -/
namespace LiquidityBook.Binary64

/-- The number `digits * 10 ^ exponent`. -/
structure Digits where
  digits : Nat
  exponent : Int
deriving DecidableEq

/-- Which of two neighbours stands for the number halfway between them. -/
inductive Tie where
  | up
  | even
deriving DecidableEq

/-- Whether a number at `distance` above `floor`, out of `gap` up to the next, goes down to it. -/
def Tie.goesDown (tie : Tie) (floor distance gap : Nat) : Bool :=
  2 * distance < gap || (2 * distance == gap && tie == .even && floor % 2 == 0)

namespace Digits

/-- No zero at the end. -/
private def strip (fuel : Nat) (d : Digits) : Digits :=
  match fuel with
  | 0 => d
  | fuel + 1 => if d.digits ≠ 0 ∧ d.digits % 10 = 0 then strip fuel ⟨d.digits / 10, d.exponent + 1⟩ else d

/-- How many digits stand before the point of `num / den`; zeros behind the point count down. -/
private def wholeDigits (num den : Nat) : Int :=
  if den ≤ num then (Nat.toDigits 10 (num / den)).length
  else
    let size := (Nat.toDigits 10 (den / num)).length
    if num * 10 ^ (size - 1) = den then 2 - size else 1 - size

/-- The reals that round to `significand * 2 ^ exponent`, as numerators over `4 * scale`: low end,
value and high end. Below a power of two the gap is half as wide. -/
private def interval (significand : Nat) (exponent : Int) : Nat × Nat × Nat :=
  let below := if significand = 2 ^ 52 ∧ -1074 < exponent then 1 else 2
  let unit := 2 ^ exponent.toNat
  ((4 * significand - below) * unit, 4 * significand * unit, (4 * significand + 2) * unit)

/-- The nearest point with `count` digits that lies between the ends, if there is one. -/
private def onGrid? (tie : Tie) (low value high den : Nat) (closed : Bool) (whole : Int) (count : Nat) :
    Option Digits :=
  let step : Int := whole - count
  let up := if 0 ≤ step then 1 else 10 ^ (-step).toNat
  let d := if 0 ≤ step then den * 10 ^ step.toNat else den
  let inside := fun n : Nat => if closed then low * up ≤ n * d ∧ n * d ≤ high * up
    else low * up < n * d ∧ n * d < high * up
  let floor := value * up / d
  let distance := value * up - floor * d
  match decide (inside floor), decide (inside (floor + 1)) with
  | true, true => some ⟨if tie.goesDown floor distance d then floor else floor + 1, step⟩
  | true, false => some ⟨floor, step⟩
  | false, true => some ⟨floor + 1, step⟩
  | false, false => none

/-- Seventeen digits always suffice. -/
private def search (tie : Tie) (low value high den : Nat) (closed : Bool) (whole : Int) :
    (left count : Nat) → Digits
  | 0, count => ⟨value * 10 ^ (count - whole).toNat / den, whole - count⟩
  | left + 1, count =>
    match onGrid? tie low value high den closed whole count with
    | some d => d
    | none => search tie low value high den closed whole left (count + 1)

/-- The shortest digits of `significand * 2 ^ exponent`, which is a double and not zero. -/
def shortest (tie : Tie) (significand : Nat) (exponent : Int) : Digits :=
  let (low, value, high) := interval significand exponent
  let den := 4 * 2 ^ (-exponent).toNat
  strip 400 (search tie low value high den (significand % 2 == 0) (wholeDigits value den) 17 1)

end Digits

end LiquidityBook.Binary64
