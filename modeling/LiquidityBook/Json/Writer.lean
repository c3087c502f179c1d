import LiquidityBook.Digits
import LiquidityBook.Json.Basic

/-! JSON texts of values, compact or with one member or item on a line. -/
namespace LiquidityBook.Json

private def hexDigit (n : Nat) : Char := Nat.digitChar n

def escape (c : Char) : List Char :=
  if c = '"' then ['\\', '"']
  else if c = '\\' then ['\\', '\\']
  else if c = '\x08' then ['\\', 'b']
  else if c = '\x0c' then ['\\', 'f']
  else if c = '\n' then ['\\', 'n']
  else if c = '\r' then ['\\', 'r']
  else if c = '\t' then ['\\', 't']
  else if c.toNat < 0x20 then
    ['\\', 'u', '0', '0', hexDigit (c.toNat / 16), hexDigit (c.toNat % 16)]
  else [c]

def quote (s : String) : List Char := '"' :: s.toList.flatMap escape ++ ['"']

def Number.chars : Number → List Char
  | .integer n => (if n < 0 then ['-'] else []) ++ Digits.ofNat n.natAbs
  | .real negative whole fraction exponent =>
    (if negative then ['-'] else []) ++ Digits.ofNat whole ++
      (if fraction.isEmpty then [] else '.' :: fraction) ++
      (if exponent = 0 then []
       else 'e' :: (if exponent < 0 then '-' else '+') :: Digits.ofNat exponent.natAbs)

/-- The characters that are escaped by a letter or a mark of their own. -/
def Lettered (c : Char) : Prop :=
  c = '"' ∨ c = '\\' ∨ c = '\x08' ∨ c = '\x0c' ∨ c = '\n' ∨ c = '\r' ∨ c = '\t'

theorem escape_of_not_lettered {c : Char} (h : ¬ Lettered c) : escape c =
    if c.toNat < 0x20 then
      ['\\', 'u', '0', '0', Nat.digitChar (c.toNat / 16), Nat.digitChar (c.toNat % 16)]
    else [c] := by
  simp only [Lettered, not_or] at h
  obtain ⟨hq, hb, h8, hc, hn, hr, ht⟩ := h
  simp only [escape, if_neg hq, if_neg hb, if_neg h8, if_neg hc, if_neg hn, if_neg hr, if_neg ht, hexDigit]

/-- A text with a broken escape is written as the empty one. -/
private def key (k : Option String) : List Char := quote (k.getD "")

mutual
/-- Without any blank. -/
def chars : Json → List Char
  | null => "null".toList
  | bool b => (if b then "true" else "false").toList
  | number n => n.chars
  | string s => key s
  | array items => '[' :: itemChars items
  | object members => '\x7b' :: memberChars members
termination_by structural j => j

/-- The items that are left and the closing bracket. -/
def itemChars : List Json → List Char
  | [] => [']']
  | [j] => chars j ++ [']']
  | j :: js => chars j ++ ',' :: itemChars js
termination_by structural js => js

/-- The members that are left and the closing brace. -/
def memberChars : List (Option String × Json) → List Char
  | [] => ['\x7d']
  | [(k, j)] => key k ++ ':' :: chars j ++ ['\x7d']
  | (k, j) :: js => key k ++ ':' :: chars j ++ ',' :: memberChars js
termination_by structural js => js
end

theorem chars_text (s : String) : chars (text s) = quote s := rfl

theorem itemChars_cons (j i : Json) (js : List Json) :
    itemChars (j :: i :: js) = chars j ++ ',' :: itemChars (i :: js) := rfl

theorem memberChars_singleton (k : String) (j : Json) :
    memberChars [(some k, j)] = quote k ++ ':' :: chars j ++ ['\x7d'] := rfl

theorem memberChars_cons (k : String) (j : Json) (m : Option String × Json) (ms : List (Option String × Json)) :
    memberChars ((some k, j) :: m :: ms) = quote k ++ ':' :: chars j ++ ',' :: memberChars (m :: ms) := rfl

def compact (j : Json) : String := String.ofList j.chars

private def line (indent : Nat) : List Char := '\n' :: List.replicate (2 * indent) ' '

mutual
/-- Two blanks for each level of nesting; an empty array or object stays on its line. -/
def prettyChars (indent : Nat) : Json → List Char
  | array [] => ['[', ']']
  | array items => '[' :: prettyItems (indent + 1) items ++ line indent ++ [']']
  | object [] => ['\x7b', '\x7d']
  | object members => '\x7b' :: prettyMembers (indent + 1) members ++ line indent ++ ['\x7d']
  | j => chars j
termination_by structural j => j

def prettyItems (indent : Nat) : List Json → List Char
  | [] => []
  | [j] => line indent ++ prettyChars indent j
  | j :: js => line indent ++ prettyChars indent j ++ ',' :: prettyItems indent js
termination_by structural js => js

def prettyMembers (indent : Nat) : List (Option String × Json) → List Char
  | [] => []
  | [(k, j)] => line indent ++ key k ++ ':' :: ' ' :: prettyChars indent j
  | (k, j) :: js => line indent ++ key k ++ ':' :: ' ' :: prettyChars indent j ++ ',' :: prettyMembers indent js
termination_by structural js => js
end

def pretty (j : Json) : String := String.ofList (prettyChars 0 j)

end LiquidityBook.Json
