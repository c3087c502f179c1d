import LiquidityBook.Digits

/-! Doubles through their bits: the number a finite double stands for, and the double nearest to a
ratio of two naturals. -/
namespace LiquidityBook.Binary64

/-- A double that is not a NaN, as a sign and a magnitude. -/
inductive Magnitude where
  | infinite
  /-- The number `significand * 2 ^ exponent`. -/
  | finite (significand : Nat) (exponent : Int)
deriving DecidableEq

def parts? (x : Float) : Option (Bool × Magnitude) :=
  let bits := x.toBits.toNat
  let negative := 2 ^ 63 ≤ bits
  let field : Nat := bits / 2 ^ 52 % 2 ^ 11
  let fraction : Nat := bits % 2 ^ 52
  if field = 2047 then
    if fraction = 0 then some (negative, .infinite) else none
  else if field = 0 then some (negative, .finite fraction (-1074))
  else some (negative, .finite (2 ^ 52 + fraction) ((field : Int) - 1075))

/-- The whole part, cut off at the bounds of 64 bits. A NaN goes to zero. -/
def toInt64 (x : Float) : Int64 := x.toModel.toInt64

/-- The position of the leading bit of `num / den`, both positive. -/
private def leadingBit (num den : Nat) : Int :=
  let guess : Int := (num.log2 : Int) - den.log2
  let reached := if 0 ≤ guess then den * 2 ^ guess.toNat ≤ num else den ≤ num * 2 ^ (-guess).toNat
  if reached then guess else guess - 1

/-- The bits of the double nearest to `num / den`, a tie going to the even significand. Beyond the
largest double this is infinity. -/
def ratioBits (num den : Nat) : Nat :=
  if num = 0 then 0
  else
    let unit : Int := max (leadingBit num den - 52) (-1074)
    let n := if 0 ≤ unit then num else num * 2 ^ (-unit).toNat
    let d := if 0 ≤ unit then den * 2 ^ unit.toNat else den
    let q := n / d
    let r := n % d
    let significand := if d < 2 * r ∨ (d = 2 * r ∧ q % 2 = 1) then q + 1 else q
    min ((unit + 1074).toNat * 2 ^ 52 + significand) (2047 * 2 ^ 52)

def ofBits (negative : Bool) (magnitude : Nat) : Float :=
  Float.ofBits (UInt64.ofNat (if negative then 2 ^ 63 + magnitude else magnitude))

/-- The double nearest to `digits * 10 ^ exponent`. Numbers far outside the range of doubles are
settled by their number of digits alone. -/
def ofDecimal (negative : Bool) (digits : Nat) (exponent : Int) : Float :=
  let size : Int := (Nat.toDigits 10 digits).length + exponent
  if digits = 0 ∨ size < -400 then ofBits negative 0
  else if 400 < size then ofBits negative (2047 * 2 ^ 52)
  else if 0 ≤ exponent then ofBits negative (ratioBits (digits * 10 ^ exponent.toNat) 1)
  else ofBits negative (ratioBits digits (10 ^ (-exponent).toNat))

end LiquidityBook.Binary64
