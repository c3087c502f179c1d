import LiquidityBook.Digits

/-! Decimal numbers with a 96-bit magnitude and up to 28 fractional digits. A value keeps the scale
it was written with, so `0.50` and `0.5` are different values of the same number, and so are zeros
with different signs. -/
namespace LiquidityBook

/-- The number `magnitude / 10 ^ scale` with a sign. -/
structure Decimal where
  negative : Bool
  magnitude : Nat
  scale : Nat
  magnitude_lt : magnitude < 2 ^ 96
  scale_le : scale ≤ 28
deriving DecidableEq

namespace Decimal

@[ext] theorem ext {a b : Decimal} (hn : a.negative = b.negative) (hm : a.magnitude = b.magnitude)
    (hs : a.scale = b.scale) : a = b := by
  cases a; cases b; cases hn; cases hm; cases hs; rfl

def coefficient (a : Decimal) : Int := if a.negative then -a.magnitude else a.magnitude

/-- The number `coefficient / 10 ^ scale`. Zero has no minus sign. -/
def ofCoefficient (coefficient : Int) (scale : Nat) (lt : coefficient.natAbs < 2 ^ 96)
    (le : scale ≤ 28) : Decimal :=
  ⟨coefficient < 0, coefficient.natAbs, scale, lt, le⟩

theorem coefficient_ofCoefficient (c : Int) (scale : Nat) (lt : c.natAbs < 2 ^ 96) (le : scale ≤ 28) :
    (ofCoefficient c scale lt le).coefficient = c := by
  simp only [coefficient, ofCoefficient, decide_eq_true_eq]
  split <;> omega

theorem natAbs_coefficient (a : Decimal) : a.coefficient.natAbs = a.magnitude := by
  simp only [coefficient]
  split <;> omega

theorem natAbs_coefficient_lt (a : Decimal) : a.coefficient.natAbs < 2 ^ 96 := a.natAbs_coefficient ▸ a.magnitude_lt

def ofParts? (coefficient : Int) (scale : Nat) : Option Decimal :=
  if h : coefficient.natAbs < 2 ^ 96 ∧ scale ≤ 28 then some (ofCoefficient coefficient scale h.1 h.2)
  else none

def zero : Decimal := ⟨false, 0, 0, by decide, by decide⟩
def one : Decimal := ⟨false, 1, 0, by decide, by decide⟩

instance : Inhabited Decimal := ⟨zero⟩

def isZero (a : Decimal) : Bool := a.magnitude == 0

/-- A quotient to the nearest integer, a half going to the even one. -/
def divHalfEven (n d : Nat) : Nat :=
  let q := n / d
  let r := n % d
  if d < 2 * r ∨ (d = 2 * r ∧ q % 2 = 1) then q + 1 else q

theorem divHalfEven_le (n d : Nat) : divHalfEven n d ≤ n / d + 1 := by
  simp only [divHalfEven]; split <;> omega

/-- The signed form of `divHalfEven`, symmetric about zero. -/
def divHalfEvenInt (n : Int) (d : Nat) : Int :=
  n.sign * (divHalfEven n.natAbs d : Nat)

/-- The nearest decimal without fractional digits. -/
def clampWhole (n : Int) : Decimal :=
  if h : n.natAbs < 2 ^ 96 then ofCoefficient n 0 h (by decide)
  else ⟨n < 0, 2 ^ 96 - 1, 0, by decide, by decide⟩

/-- The number `coefficient / 10 ^ scale`, rounded once to as many of its fractional digits as fit. -/
def fit (coefficient : Int) (scale : Nat) : Decimal :=
  go scale 0
where
  /-- Tries with `dropped` digits dropped and `places` left. -/
  go (places dropped : Nat) : Decimal :=
    let c := divHalfEvenInt coefficient (10 ^ dropped)
    if h : c.natAbs < 2 ^ 96 ∧ places ≤ 28 then ofCoefficient c places h.1 h.2
    else
      match places with
      | 0 => clampWhole c
      | left + 1 => go left (dropped + 1)

/-- The coefficient over the common denominator `10 ^ scale`. -/
def rescaled (a : Decimal) (scale : Nat) : Int := a.coefficient * 10 ^ (scale - a.scale)

/-- A sum has the larger scale of its terms; a term that is zero leaves the other as it is. -/
def add (a b : Decimal) : Decimal :=
  if a.isZero then b
  else if b.isZero then a
  else
    let scale := max a.scale b.scale
    fit (a.rescaled scale + b.rescaled scale) scale

def neg (a : Decimal) : Decimal := { a with negative := !a.negative }

/-- A number minus zero is the number as it is. -/
def sub (a b : Decimal) : Decimal := if b.isZero then a else add a b.neg

def sum (ws : List Decimal) : Decimal := ws.foldl add zero

/-- `a ≤ b` as numbers, whatever their scales. -/
def le (a b : Decimal) : Bool :=
  a.coefficient * 10 ^ b.scale ≤ b.coefficient * 10 ^ a.scale

def inUnit (a : Decimal) : Bool := 0 ≤ a.coefficient && a.coefficient ≤ 10 ^ a.scale

private theorem natAbs_tdiv_le (n : Int) (d : Nat) : (n.tdiv d).natAbs ≤ n.natAbs := by
  rw [Int.natAbs_tdiv]; exact Nat.div_le_self _ _

/-- The shortest form of the number: no fractional digit at the end is zero. -/
def normalize (a : Decimal) : Decimal :=
  go a.scale a.coefficient (a.natAbs_coefficient ▸ a.magnitude_lt) a.scale_le
where
  go : (scale : Nat) → (c : Int) → c.natAbs < 2 ^ 96 → scale ≤ 28 → Decimal
    | 0, c, hc, hs => ofCoefficient c 0 hc hs
    | scale + 1, c, hc, hs =>
      if c.tmod 10 = 0 then
        go scale (c.tdiv 10) (Nat.lt_of_le_of_lt (natAbs_tdiv_le c 10) hc) (Nat.le_of_succ_le hs)
      else ofCoefficient c (scale + 1) hc hs

theorem natAbs_divHalfEvenInt_le (n : Int) (d : Nat) :
    (divHalfEvenInt n d).natAbs ≤ n.natAbs / d + 1 := by
  rw [divHalfEvenInt, Int.natAbs_mul]
  have h := divHalfEven_le n.natAbs d
  rcases Int.sign_trichotomy n with hs | hs | hs <;> rw [hs] <;> simp <;> omega

/-- At most `places` fractional digits, a half going to the even neighbour. -/
def round (a : Decimal) (places : Nat) : Decimal :=
  if h : places < a.scale then
    ofCoefficient (divHalfEvenInt a.coefficient (10 ^ (a.scale - places))) places (by
      have h10 : 10 ≤ 10 ^ (a.scale - places) := Nat.le_self_pow (by omega) 10
      have := natAbs_divHalfEvenInt_le a.coefficient (10 ^ (a.scale - places))
      have := a.natAbs_coefficient
      have := a.magnitude_lt
      have : a.coefficient.natAbs / 10 ^ (a.scale - places) ≤ a.coefficient.natAbs / 10 :=
        Nat.div_le_div_left h10 (by decide)
      omega) (by have := a.scale_le; omega)
  else a

/-- All the digits the scale asks for. -/
def text (a : Decimal) : String :=
  let digits := Digits.padLeft (a.scale + 1) (Digits.ofNat a.magnitude)
  let whole := digits.take (digits.length - a.scale)
  let fraction := digits.drop (digits.length - a.scale)
  let sign := if a.negative then ['-'] else []
  String.ofList (sign ++ whole ++ if a.scale = 0 then [] else '.' :: fraction)

end Decimal

end LiquidityBook
