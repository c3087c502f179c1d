import LiquidityBook.Digits
import LiquidityBook.Text
import LiquidityBook.Json.Basic

/-! Reading JSON texts. -/
namespace LiquidityBook.Json

def isBlank (c : Char) : Bool := c == ' ' || c == '\n' || c == '\t' || c == '\r'

def skip (cs : List Char) : List Char := cs.dropWhile isBlank

/-- A character of a text, or half of one: an escape names a 16-bit unit. -/
inductive Piece where
  | char (c : Char)
  | unit (n : Nat)

/-- Two units from the surrogate ranges stand for one character; one alone stands for none. -/
def Piece.join : List Piece → Option (List Char)
  | [] => some []
  | .char c :: ps => (join ps).map (c :: ·)
  | .unit n :: ps =>
    if n < 0xd800 ∨ 0xe000 ≤ n then (join ps).map (Char.ofNat n :: ·)
    else
      match ps with
      | .unit m :: rest =>
        if n < 0xdc00 ∧ 0xdc00 ≤ m ∧ m < 0xe000 then
          (join rest).map (Char.ofNat (0x10000 + (n - 0xd800) * 0x400 + (m - 0xdc00)) :: ·)
        else none
      | _ => none

/-- The pieces up to the closing quote, and what follows it. -/
def pieces : List Char → Option (List Piece × List Char)
  | [] => none
  | '"' :: cs => some ([], cs)
  | '\\' :: 'u' :: a :: b :: c :: d :: cs => do
    let n ← Hex.value? [a, b, c, d]
    let (ps, rest) ← pieces cs
    return (.unit n :: ps, rest)
  | '\\' :: e :: cs => do
    let c ← match e with
      | '"' => some '"'
      | '\\' => some '\\'
      | '/' => some '/'
      | 'b' => some '\x08'
      | 'f' => some '\x0c'
      | 'n' => some '\n'
      | 'r' => some '\r'
      | 't' => some '\t'
      | _ => none
    let (ps, rest) ← pieces cs
    return (.char c :: ps, rest)
  | c :: cs =>
    if c == '\\' || c.toNat < 0x20 then none
    else do
      let (ps, rest) ← pieces cs
      return (.char c :: ps, rest)

def readText (cs : List Char) : Option (Option String × List Char) := do
  let (ps, rest) ← pieces cs
  return ((Piece.join ps).map String.ofList, rest)

def readDigits (cs : List Char) : Option (List Char × List Char) :=
  let ds := cs.takeWhile Char.isDigit
  if ds.isEmpty then none else some (ds, cs.dropWhile Char.isDigit)

def readExponent : List Char → Option (Int × List Char)
  | '-' :: cs => (readDigits cs).map fun (ds, rest) => (-(Digits.value ds : Int), rest)
  | '+' :: cs => (readDigits cs).map fun (ds, rest) => ((Digits.value ds : Int), rest)
  | cs => (readDigits cs).map fun (ds, rest) => ((Digits.value ds : Int), rest)

/-- A number without its sign: no zero in front of other digits, a digit on each side of the point. -/
def readNumber (negative : Bool) (cs : List Char) : Option (Number × List Char) := do
  let (ds, rest) ← readDigits cs
  if ds.head? = some '0' ∧ ds.length ≠ 1 then none
  let whole := Digits.value ds
  let (fraction, rest) ← match rest with
    | '.' :: cs => readDigits cs
    | cs => some ([], cs)
  let (exponent, marked, rest) ← match rest with
    | c :: cs =>
      if c == 'e' || c == 'E' then (readExponent cs).map fun (e, rest) => (e, true, rest)
      else some (0, false, rest)
    | [] => some (0, false, [])
  if fraction.isEmpty && !marked && !(negative && whole == 0) then
    return (.integer (if negative then -whole else whole), rest)
  else return (.real negative whole fraction exponent, rest)

def dropWord? : (word cs : List Char) → Option (List Char)
  | [], cs => some cs
  | _ :: _, [] => none
  | w :: ws, c :: cs => if w = c then dropWord? ws cs else none

mutual
/-- A value in front of the text, and what follows it. The fuel is spent on values and members. -/
def readValue : (fuel : Nat) → List Char → Option (Json × List Char)
  | 0, _ => none
  | fuel + 1, cs =>
    match skip cs with
    | '"' :: cs => (readText cs).map fun (s, rest) => (string s, rest)
    | '[' :: cs =>
      match skip cs with
      | ']' :: rest => some (array [], rest)
      | cs => (readItems fuel cs).map fun (js, rest) => (array js, rest)
    | '\x7b' :: cs =>
      match skip cs with
      | '\x7d' :: rest => some (object [], rest)
      | cs => (readMembers fuel cs).map fun (ms, rest) => (object ms, rest)
    | 'n' :: cs => (dropWord? "ull".toList cs).map fun rest => (null, rest)
    | 't' :: cs => (dropWord? "rue".toList cs).map fun rest => (bool true, rest)
    | 'f' :: cs => (dropWord? "alse".toList cs).map fun rest => (bool false, rest)
    | '-' :: cs => (readNumber true cs).map fun (n, rest) => (number n, rest)
    | cs => (readNumber false cs).map fun (n, rest) => (number n, rest)

def readItems : (fuel : Nat) → List Char → Option (List Json × List Char)
  | 0, _ => none
  | fuel + 1, cs => do
    let (j, rest) ← readValue fuel cs
    match skip rest with
    | ',' :: rest =>
      let (js, rest) ← readItems fuel rest
      return (j :: js, rest)
    | ']' :: rest => return ([j], rest)
    | _ => none

def readMembers : (fuel : Nat) → List Char → Option (List (Option String × Json) × List Char)
  | 0, _ => none
  | fuel + 1, cs => do
    let (k, rest) ← match skip cs with
      | '"' :: cs => readText cs
      | _ => none
    let rest ← match skip rest with
      | ':' :: cs => some cs
      | _ => none
    let (j, rest) ← readValue fuel rest
    match skip rest with
    | ',' :: rest =>
      let (ms, rest) ← readMembers fuel rest
      return ((k, j) :: ms, rest)
    | '\x7d' :: rest => return ([(k, j)], rest)
    | _ => none
end

def parse? (s : String) : Option Json :=
  match readValue (s.length + 1) s.toList with
  | some (j, rest) => if (skip rest).isEmpty then some j else none
  | none => none

end LiquidityBook.Json
