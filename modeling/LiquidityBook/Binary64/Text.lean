import LiquidityBook.Binary64.Shortest
import LiquidityBook.Digits

/-! Doubles in plain notation, read and written. -/
namespace LiquidityBook.Binary64

/-- `digits * 10 ^ exponent` without an exponent: a whole number has no point. -/
def plainDigits (digits : Nat) (exponent : Int) : List Char :=
  let ds := LiquidityBook.Digits.ofNat digits
  if 0 ≤ exponent then ds ++ List.replicate exponent.toNat '0'
  else
    let places := (-exponent).toNat
    let padded := LiquidityBook.Digits.padLeft (places + 1) ds
    padded.take (padded.length - places) ++ '.' :: padded.drop (padded.length - places)

/-- The shortest text that reads back as the double, never with an exponent. Ties go up. -/
def text (x : Float) : String :=
  match parts? x with
  | none => "NaN"
  | some (negative, magnitude) =>
    let body := match magnitude with
      | .infinite => "inf".toList
      | .finite 0 _ => ['0']
      | .finite significand exponent =>
        let d := Digits.shortest .up significand exponent
        plainDigits d.digits d.exponent
    String.ofList ((if negative then ['-'] else []) ++ body)

/-- An unsigned number: digits with at most one point among or beside them, and an exponent. -/
private def readNumber? (negative : Bool) (cs : List Char) : Option Float := do
  let whole := cs.takeWhile Char.isDigit
  let rest := cs.dropWhile Char.isDigit
  let (fraction, rest) := match rest with
    | '.' :: cs => (cs.takeWhile Char.isDigit, cs.dropWhile Char.isDigit)
    | cs => ([], cs)
  if whole.isEmpty && fraction.isEmpty then none
  let e ← match rest with
    | [] => some 0
    | c :: cs => if c == 'e' || c == 'E' then LiquidityBook.Digits.readInt? cs else none
  return ofDecimal negative (LiquidityBook.Digits.value (whole ++ fraction)) (e - fraction.length)

/-- A word for a value that is no number, in any letter case. -/
private def readWord? (negative : Bool) (cs : List Char) : Option Float :=
  match String.ofList (cs.map Char.toLower) with
  | "inf" | "infinity" => some (ofBits negative (2047 * 2 ^ 52))
  | "nan" => some (ofBits negative (4095 * 2 ^ 51))
  | _ => none

def read? (s : String) : Option Float :=
  match s.toList with
  | '-' :: cs => (readNumber? true cs).or (readWord? true cs)
  | '+' :: cs => (readNumber? false cs).or (readWord? false cs)
  | cs => (readNumber? false cs).or (readWord? false cs)

/-- The whole powers of a double by repeated squaring, a negative one as a reciprocal. -/
def powInt (x : Float) (n : Int) : Float :=
  let r := go n.natAbs 1.0 x n.natAbs
  if n < 0 then 1.0 / r else r
where
  go : (fuel : Nat) → (acc x : Float) → (k : Nat) → Float
    | 0, acc, x, k => if k % 2 = 1 then acc * x else acc
    | fuel + 1, acc, x, k =>
      let acc := if k % 2 = 1 then acc * x else acc
      if k / 2 = 0 then acc else go fuel acc (x * x) (k / 2)

end LiquidityBook.Binary64
