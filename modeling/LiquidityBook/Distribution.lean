import LiquidityBook.Decimal.Basic
import LiquidityBook.Error
import LiquidityBook.Uint

/-! Weights as integers: the share one is `10 ^ 18`, and a weight is cut off behind its
eighteenth fractional digit. -/
namespace LiquidityBook.Distribution

def one : Nat := 10 ^ 18

def ofWeight (w : Decimal) : Except Error Nat :=
  if w.inUnit then .ok (w.coefficient.toNat * one / 10 ^ w.scale)
  else .error (.schemaViolation (.weightOutsideUnit w))

/-- The weight of an integer, in its shortest form. -/
def toWeight (value : Nat) : Except Error Decimal :=
  if h : value ≤ one then
    .ok (Decimal.normalize ⟨false, value, 18, by simp only [one] at h; omega, by decide⟩)
  else .error (.schemaViolation (.distributionAboveOne value))

/-- An unsigned 128-bit integer, with or without a plus sign. -/
def integer? (text : String) : Option Uint128 := (Digits.readNat? text.toList).bind (Uint.ofNat? 128)

/-- The weight of an integer given by its text. -/
def read (text : String) : Except Error Decimal :=
  match integer? text with
  | some n => toWeight n.toNat
  | none => .error (.schemaViolation (.distributionNotInteger text))

/-- Lowers entries from the end by `excess` in total, each as far as it goes; the second part is
the excess that is left. -/
def trimEnd (excess : Nat) : List Nat → List Nat × Nat
  | [] => ([], excess)
  | v :: vs =>
    let (kept, left) := trimEnd excess vs
    ((v - left) :: kept, left - v)

/-- Raises the last entry that is not zero; the second part is the deficit that is left. -/
def topUp (deficit : Nat) : List Nat → List Nat × Nat
  | [] => ([], deficit)
  | v :: vs =>
    let (kept, left) := topUp deficit vs
    if v = 0 then (v :: kept, left) else ((v + left) :: kept, 0)

/-- Makes a distribution that is not all zero sum to one, moving weight only at its end. -/
def normalize (values : List Nat) : List Nat :=
  let total := values.foldl (· + ·) 0
  if total = 0 then values
  else if total < one then (topUp (one - total) values).1
  else (trimEnd (total - one) values).1

end LiquidityBook.Distribution
