import LiquidityBook.Digits

/-! Texts as TOML writes them: with the plainest quotes that need no escape, or else escaped. -/
namespace LiquidityBook.Toml

/-- Whether a text holds `count` quotes in a row. -/
def hasRun (quote : Char) (count : Nat) : List Char → Bool
  | [] => false
  | c :: cs => (List.replicate count quote).isPrefixOf (c :: cs) || hasRun quote count cs

/-- A control character that only an escape can show. -/
def isControl (c : Char) : Bool := (c.toNat < 0x20 && c != '\t' && c != '\n') || c.toNat == 0x7f

private def hexUpper (n : Nat) : Char := (Nat.digitChar n).toUpper

/-- A character other than a quote between double quotes. A long text keeps its line breaks. -/
def escapeChar (long : Bool) (c : Char) : List Char :=
  if c = '\x08' then ['\\', 'b']
  else if c = '\t' then ['\\', 't']
  else if c = '\n' then if long then [c] else ['\\', 'n']
  else if c = '\x0c' then ['\\', 'f']
  else if c = '\r' then ['\\', 'r']
  else if c = '\\' then ['\\', '\\']
  else if isControl c then ['\\', 'u', '0', '0', hexUpper (c.toNat / 16), hexUpper (c.toNat % 16)]
  else [c]

/-- A long text may hold two quotes in a row, and after them an escaped one. -/
def escape (long : Bool) : (run : Nat) → List Char → List Char
  | _, [] => []
  | run, c :: cs =>
    if c = '"' then
      if long ∧ run < 2 then '"' :: escape long (run + 1) cs else '\\' :: '"' :: escape long 0 cs
    else escapeChar long c ++ escape long 0 cs

def quote (s : String) : String :=
  let cs := s.toList
  let lines := cs.contains '\n'
  let sound := !cs.any isControl
  let unescaped := sound && !cs.contains '\\'
  let lead : List Char := if lines then ['\n'] else []
  let short := fun (mark : Char) (body : List Char) => mark :: body ++ [mark]
  let long := fun (mark : Char) (body : List Char) => [mark, mark, mark] ++ lead ++ body ++ [mark, mark, mark]
  String.ofList
    (if unescaped && !lines && !cs.contains '"' then short '"' (escape false 0 cs)
     else if sound && !lines && !cs.contains '\'' then short '\'' cs
     else if unescaped && !hasRun '"' 3 cs then long '"' (escape true 0 cs)
     else if sound && !hasRun '\'' 3 cs then long '\'' cs
     else if lines then long '"' (escape true 0 cs)
     else short '"' (escape false 0 cs))

end LiquidityBook.Toml
