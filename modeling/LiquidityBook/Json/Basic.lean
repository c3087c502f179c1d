import LiquidityBook.Binary64.Shortest

/-! JSON values as their texts give them: a number keeps its digits, and an object keeps its members
in order, repeated ones too. -/
namespace LiquidityBook

/-- A number by its digits. -/
inductive Json.Number where
  | integer (n : Int)
  /-- A number with a fraction or an exponent, or the zero with a minus sign. -/
  | real (negative : Bool) (whole : Nat) (fraction : List Char) (exponent : Int)
deriving DecidableEq

/-- A value. A text in it is `none` if one of its escapes stands for no character. -/
inductive Json where
  | null
  | bool (b : Bool)
  | number (n : Json.Number)
  | string (s : Option String)
  | array (items : List Json)
  | object (members : List (Option String × Json))

namespace Json

instance : Inhabited Json := ⟨null⟩

def int (n : Int) : Json := number (.integer n)

def nat (n : Nat) : Json := int n

def text (s : String) : Json := string (some s)

def record (members : List (String × Json)) : Json :=
  object (members.map fun (k, v) => (some k, v))

def ofUInt16 (n : UInt16) : Json := nat n.toNat

def ofUInt32 (n : UInt32) : Json := nat n.toNat

def ofUInt64 (n : UInt64) : Json := nat n.toNat

def ofInt32 (n : Int32) : Json := int n.toInt

def ofList {α : Type} (f : α → Json) (as : List α) : Json := array (as.map f)

def ofOption {α : Type} (f : α → Json) : Option α → Json
  | some a => f a
  | none => null

/-- The shortest digits of a double, ties going to the even one. The point stays among them as long as the number
is neither below `10 ^ -5` nor as large as `10 ^ 16`, and a whole number has one zero behind it. -/
def ofFloat (x : Float) : Json :=
  match Binary64.parts? x with
  | some (negative, .finite significand exponent) =>
    if significand = 0 then number (.real negative 0 ['0'] 0)
    else
      let d := Binary64.Digits.shortest .even significand exponent
      let ds := Nat.toDigits 10 d.digits
      let point : Int := ds.length + d.exponent
      if 16 < point ∨ point ≤ -5 then
        number (.real negative (Nat.ofDigitChars 10 (ds.take 1) 0) (ds.drop 1) (point - 1))
      else if point ≤ 0 then
        number (.real negative 0 (List.replicate (-point).toNat '0' ++ ds) 0)
      else if ds.length ≤ point.toNat then
        number (.real negative (d.digits * 10 ^ (point.toNat - ds.length)) ['0'] 0)
      else
        number (.real negative (Nat.ofDigitChars 10 (ds.take point.toNat) 0) (ds.drop point.toNat) 0)
  | _ => null

mutual
def depth : Json → Nat
  | array items => depthItems items + 1
  | object members => depthMembers members + 1
  | _ => 0
termination_by structural j => j

def depthItems : List Json → Nat
  | [] => 0
  | j :: js => max (depth j) (depthItems js)
termination_by structural js => js

def depthMembers : List (Option String × Json) → Nat
  | [] => 0
  | (_, j) :: js => max (depth j) (depthMembers js)
termination_by structural js => js
end

mutual
/-- What is kept of a text: of the members of an object that share a name, the last one. -/
def merged : Json → Json
  | array items => array (mergedItems items)
  | object members => object (mergedMembers members)
  | j => j
termination_by structural j => j

def mergedItems : List Json → List Json
  | [] => []
  | j :: js => merged j :: mergedItems js
termination_by structural js => js

def mergedMembers : List (Option String × Json) → List (Option String × Json)
  | [] => []
  | (k, j) :: ms => if k ∈ ms.map (·.1) then mergedMembers ms else (k, merged j) :: mergedMembers ms
termination_by structural ms => ms
end

namespace Number

/-- Takes digits into a 64-bit significand, until one does not fit. -/
private def accumulate (significand : Nat) : List Char → Nat × List Char
  | [] => (significand, [])
  | c :: cs =>
    let next := 10 * significand + (c.toNat - '0'.toNat)
    if next < 2 ^ 64 then accumulate next cs else (significand, c :: cs)

/-- Multiplies by a power of ten in one step, or divides in steps of at most `10 ^ 308`. -/
private def scaleFloat? (x : Float) (exponent : Int) : (fuel : Nat) → Option Float
  | 0 => some x
  | fuel + 1 =>
    if exponent.natAbs ≤ 308 then
      let power := Binary64.ofDecimal false 1 exponent.natAbs
      if exponent < 0 then some (x / power)
      else if (x * power).isInf then none
      else some (x * power)
    else if x == 0.0 then some x
    else if 0 ≤ exponent then none
    else scaleFloat? (x / Binary64.ofDecimal false 1 308) (exponent + 308) fuel

/-- A double near the number: its first digits, as many as fit in 64 bits, times a power of ten.
A number beyond the doubles has none. -/
def toFloat? (n : Number) : Option Float :=
  let (negative, whole, fraction, exponent) := match n with
    | integer n => (decide (n < 0), n.natAbs, ([] : List Char), (0 : Int))
    | real negative whole fraction exponent => (negative, whole, fraction, exponent)
  let (significand, wholeLeft) := accumulate 0 (Nat.toDigits 10 whole)
  let (significand', fractionLeft) := accumulate significand fraction
  let shift : Int := (wholeLeft.length : Int) - (fraction.length - fractionLeft.length : Nat)
  let magnitude :=
    if exponent.natAbs < 2 ^ 31 then
      scaleFloat? (Binary64.ofDecimal false significand' 0) (shift + exponent) 8
    else if significand' ≠ 0 ∧ 0 ≤ exponent then none
    else some 0.0
  magnitude.map fun x => if negative then -x else x

end Number

end Json

end LiquidityBook
