import LiquidityBook.Binary64.Text
import LiquidityBook.Text
import LiquidityBook.Toml.Moment

/-! The TOML values that are one word: booleans, numbers, dates and times. -/
namespace LiquidityBook.Toml

/-- Digits with single underscores between them, without these. -/
def grouped? (isDigit : Char → Bool) : List Char → Option (List Char)
  | [] => none
  | [c] => if isDigit c then some [c] else none
  | c :: '_' :: cs => if isDigit c then (grouped? isDigit cs).map (c :: ·) else none
  | c :: cs => if isDigit c then (grouped? isDigit cs).map (c :: ·) else none

def integer? (n : Int) : Option Toml :=
  if -2 ^ 63 ≤ n ∧ n < 2 ^ 63 then some (.integer n) else none

/-- Grouped digits of a base, each below it. -/
def inBase? (base : Nat) (cs : List Char) : Option Toml := do
  let ds ← grouped? (fun c => (Hex.digit? c).any (· < base)) cs
  integer? (ds.foldl (fun n c => base * n + (Hex.digit? c).getD 0) 0)

def signed : List Char → Bool × List Char
  | '-' :: cs => (true, cs)
  | '+' :: cs => (false, cs)
  | cs => (false, cs)

private def isGroup (c : Char) : Bool := c.isDigit || c == '_'

private def exponentOf? : List Char → Option Int
  | [] => some 0
  | c :: cs =>
    if c == 'e' || c == 'E' then
      let (negative, ds) := signed cs
      (grouped? Char.isDigit ds).map fun ds => if negative then -(Digits.value ds : Int) else Digits.value ds
    else none

/-- A decimal number: no zero in front of other digits, digits on both sides of a point. A float
above the largest double is refused. -/
def decimal? (word : List Char) : Option Toml := do
  let (negative, cs) := signed word
  let front := cs.takeWhile isGroup
  if front.head? = some '0' ∧ front.length ≠ 1 then none
  let whole ← grouped? Char.isDigit front
  match cs.dropWhile isGroup with
  | [] => integer? (if negative then -(Digits.value whole : Int) else Digits.value whole)
  | '.' :: cs =>
    let fraction ← grouped? Char.isDigit (cs.takeWhile isGroup)
    finish negative (whole ++ fraction) ((← exponentOf? (cs.dropWhile isGroup)) - fraction.length)
  | cs => finish negative whole (← exponentOf? cs)
where
  finish (negative : Bool) (digits : List Char) (exponent : Int) : Option Toml :=
    let x := Binary64.ofDecimal negative (Digits.value digits) exponent
    if x.isInf && !negative then none else some (.float x)

def number? (word : List Char) : Option Toml :=
  match word with
  | '0' :: 'x' :: cs => inBase? 16 cs
  | '0' :: 'o' :: cs => inBase? 8 cs
  | '0' :: 'b' :: cs => inBase? 2 cs
  | word =>
    match signed word with
    | (negative, ['i', 'n', 'f']) => some (.float (Binary64.ofBits negative (2047 * 2 ^ 52)))
    | (negative, ['n', 'a', 'n']) => some (.float (Binary64.ofBits negative (4095 * 2 ^ 51)))
    | _ => decimal? word

def scalar? (word : List Char) : Option Toml :=
  match word with
  | ['t', 'r', 'u', 'e'] => some (.bool true)
  | ['f', 'a', 'l', 's', 'e'] => some (.bool false)
  | word => (moment? word).or (number? word)

end LiquidityBook.Toml
