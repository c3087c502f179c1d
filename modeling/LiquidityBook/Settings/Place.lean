import LiquidityBook.Digits
import LiquidityBook.Settings.Document

/-! Places in a document by their names, as in `gas.swap` or `tokens[0].symbol`. -/
namespace LiquidityBook

namespace Setting.Step

def isName (c : Char) : Bool := c.isAlphanum || c == ' ' || c == '_' || c == '-'

def isSpace (c : Char) : Bool := c == ' ' || c == '\t'

def name? (cs : List Char) : Option (Step × List Char) :=
  let name := cs.takeWhile isName
  if name.isEmpty then none else some (.entry (String.ofList name), cs.dropWhile isName)

def index? (cs : List Char) : Option (Step × List Char) := do
  let cs := cs.dropWhile isSpace
  let digits := cs.takeWhile fun c => c.isDigit || c == '-'
  let index ← Digits.readInt64? digits
  match (cs.drop digits.length).dropWhile isSpace with
  | ']' :: rest => return (.item index, rest)
  | _ => none

/-- The steps behind the first, each behind a point or in brackets. -/
def more? : (fuel : Nat) → List Char → Option (List Step)
  | 0, _ => none
  | _ + 1, [] => some []
  | fuel + 1, '.' :: cs => do
    let (step, rest) ← name? cs
    return step :: (← more? fuel rest)
  | fuel + 1, '[' :: cs => do
    let (step, rest) ← index? cs
    return step :: (← more? fuel rest)
  | _ + 1, _ => none

/-- The place with a name. A name that does not have this form is that of one entry. -/
def ofName (name : String) : List Step :=
  let steps := do
    let (step, rest) ← name? name.toList
    return step :: (← more? (rest.length + 1) rest)
  steps.getD [.entry name]

end Setting.Step

end LiquidityBook
