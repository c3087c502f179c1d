import LiquidityBook.Toml.Scalar

/-! Reading TOML documents. -/
namespace LiquidityBook.Toml

def isBlank (c : Char) : Bool := c == ' ' || c == '\t'

def skip (cs : List Char) : List Char := cs.dropWhile isBlank

/-- A character that may stand for itself within a line. -/
def isPlain (c : Char) : Bool := c == '\t' || (' ' ≤ c && c.toNat ≠ 0x7f)

def skipComment : List Char → List Char
  | '#' :: cs => cs.dropWhile isPlain
  | cs => cs

/-- What follows a line that is over but for blanks and a comment. -/
def endLine? (cs : List Char) : Option (List Char) :=
  match skipComment (skip cs) with
  | [] => some []
  | '\n' :: rest => some rest
  | _ => none

def skipLines : (fuel : Nat) → List Char → List Char
  | 0, cs => cs
  | fuel + 1, cs =>
    match skip cs with
    | '\n' :: rest => skipLines fuel rest
    | '#' :: rest => skipLines fuel (skipComment ('#' :: rest))
    | rest => rest

/-- The quotes of a text that belong to it although its closing quotes start with them, and what
follows these. A long text has three closing quotes, and up to two of its own before. -/
def closing? (long : Bool) (quote : Char) (cs : List Char) : Option (List Char × List Char) :=
  let count := (cs.takeWhile (· == quote)).length
  if long then
    if 3 ≤ count then some (List.replicate (min (count - 3) 2) quote, cs.drop (min count 5)) else none
  else if 1 ≤ count then some ([], cs.drop 1)
  else none

private def push (c : Char) (r : Option (List Char × List Char)) : Option (List Char × List Char) :=
  r.map fun (cs, rest) => (c :: cs, rest)

def literal (long : Bool) : List Char → Option (List Char × List Char)
  | [] => none
  | c :: cs =>
    match closing? long '\'' (c :: cs) with
    | some r => some r
    | none => if isPlain c || (long && c == '\n') then push c (literal long cs) else none

def escaped? : Char → Option Char
  | '"' => some '"'
  | '\\' => some '\\'
  | 'b' => some '\x08'
  | 'f' => some '\x0c'
  | 'n' => some '\n'
  | 'r' => some '\r'
  | 't' => some '\t'
  | _ => none

/-- The character with this number in hexadecimal. -/
def scalarValue? (digits : List Char) : Option Char := do
  let n ← Hex.value? digits
  if n < 0xd800 ∨ (0xdfff < n ∧ n < 0x110000) then some (Char.ofNat n) else none

/-- A text with escapes after its opening quotes. In a long one, a backslash at the end of a line
drops the line break and the blanks of the next lines, which `trim` stands for. -/
def basic (long trim : Bool) : List Char → Option (List Char × List Char)
  | [] => none
  | '\\' :: 'u' :: a :: b :: c :: d :: cs => do push (← scalarValue? [a, b, c, d]) (basic long false cs)
  | '\\' :: 'U' :: a :: b :: c :: d :: e :: f :: g :: h :: cs => do
    push (← scalarValue? [a, b, c, d, e, f, g, h]) (basic long false cs)
  | '\\' :: c :: cs =>
    match escaped? c with
    | some e => push e (basic long false cs)
    | none => if long && (skip (c :: cs)).head? == some '\n' then basic long true (c :: cs) else none
  | c :: cs =>
    if trim && (isBlank c || c == '\n') then basic long true cs
    else
      match closing? long '"' (c :: cs) with
      | some r => some r
      | none =>
        if c != '\\' && (isPlain c || (long && c == '\n')) then push c (basic long false cs) else none

/-- A line break right after the opening quotes of a long text is not part of it. -/
def dropBreak : List Char → List Char
  | '\n' :: cs => cs
  | cs => cs

def readText (cs : List Char) : Option (String × List Char) :=
  (match cs with
    | '"' :: '"' :: '"' :: cs => basic true false (dropBreak cs)
    | '"' :: cs => basic false false cs
    | '\'' :: '\'' :: '\'' :: cs => literal true (dropBreak cs)
    | '\'' :: cs => literal false cs
    | _ => none).map fun (cs, rest) => (String.ofList cs, rest)

def isBare (c : Char) : Bool := c.isAlphanum || c == '_' || c == '-'

/-- One part of a key: a word or a text on one line. -/
def readPart : List Char → Option (String × List Char)
  | '"' :: cs => (basic false false cs).map fun (cs, rest) => (String.ofList cs, rest)
  | '\'' :: cs => (literal false cs).map fun (cs, rest) => (String.ofList cs, rest)
  | cs =>
    let word := cs.takeWhile isBare
    if word.isEmpty then none else some (String.ofList word, cs.dropWhile isBare)

/-- Parts with points between them, at most `left` of them, and the blanks around. -/
def readParts : (left : Nat) → List Char → Option (List String × List Char)
  | 0, _ => none
  | left + 1, cs => do
    let (part, rest) ← readPart (skip cs)
    match skip rest with
    | '.' :: rest =>
      let (parts, rest) ← readParts left rest
      return (part :: parts, rest)
    | rest => return ([part], rest)

/-- How deep values are nested in each other, and how many parts a key has, is below this. -/
def depthLimit : Nat := 80

def readKey (cs : List Char) : Option (Key × List Char) := do
  let (parts, rest) ← readParts (depthLimit - 1) cs
  return (← Key.ofParts? parts, rest)

/-- A character of a number, a date or a boolean. -/
def isWord (c : Char) : Bool := c.isAlphanum || c == '_' || c == '-' || c == '+' || c == '.' || c == ':'

/-- A word, or a date and a time with a space between them. -/
def readWord (cs : List Char) : Option (Toml × List Char) :=
  let word := cs.takeWhile isWord
  let rest := cs.dropWhile isWord
  match date? word, rest with
  | some (_, []), ' ' :: d :: rest' =>
    if d.isDigit then
      let time := (d :: rest').takeWhile isWord
      (moment? (word ++ ' ' :: time)).map (·, (d :: rest').dropWhile isWord)
    else (scalar? word).map (·, rest)
  | _, _ => (scalar? word).map (·, rest)

mutual
/-- A value in front of the text, in which arrays and tables are nested less than `levels` deep. The
fuel is spent on values, items and entries. -/
def readValue (levels : Nat) : (fuel : Nat) → List Char → Option (Toml × List Char)
  | 0, _ => none
  | fuel + 1, '[' :: cs =>
    if levels ≤ 1 then none
    else
      match skipLines cs.length cs with
      | ']' :: rest => some (array [], rest)
      | cs => (readItems (levels - 1) fuel cs).map fun (vs, rest) => (array vs, rest)
  | fuel + 1, '\x7b' :: cs =>
    if levels ≤ 1 then none
    else
      match skip cs with
      | '\x7d' :: rest => some (table [], rest)
      | cs => do
        let (entries, rest) ← readEntries (levels - 1) fuel cs
        return (← ofEntries? entries, rest)
  | _ + 1, c :: cs =>
    if c == '"' || c == '\'' then (readText (c :: cs)).map fun (s, rest) => (string s, rest)
    else readWord (c :: cs)
  | _ + 1, [] => none

def readItems (levels : Nat) : (fuel : Nat) → List Char → Option (List Toml × List Char)
  | 0, _ => none
  | fuel + 1, cs => do
    let (v, rest) ← readValue levels fuel cs
    match skipLines rest.length rest with
    | ']' :: rest => return ([v], rest)
    | ',' :: rest =>
      match skipLines rest.length rest with
      | ']' :: rest => return ([v], rest)
      | rest =>
        let (vs, rest) ← readItems levels fuel rest
        return (v :: vs, rest)
    | _ => none

/-- Entries up to the closing brace, all on one line. -/
def readEntries (levels : Nat) : (fuel : Nat) → List Char → Option (List (Key × Toml) × List Char)
  | 0, _ => none
  | fuel + 1, cs => do
    let (key, rest) ← readKey cs
    let rest ← match rest with
      | '=' :: cs => some (skip cs)
      | _ => none
    let (v, rest) ← readValue levels fuel rest
    match skip rest with
    | '\x7d' :: rest => return ([(key, v)], rest)
    | ',' :: rest =>
      let (entries, rest) ← readEntries levels fuel rest
      return ((key, v) :: entries, rest)
    | _ => none
end

def readStatement (cs : List Char) : Option (Statement × List Char) :=
  match cs with
  | '[' :: '[' :: cs => do
    let (key, rest) ← readKey cs
    match rest with
    | ']' :: ']' :: rest => return (.item key, ← endLine? rest)
    | _ => none
  | '[' :: cs => do
    let (key, rest) ← readKey cs
    match rest with
    | ']' :: rest => return (.header key, ← endLine? rest)
    | _ => none
  | cs => do
    let (key, rest) ← readKey cs
    match rest with
    | '=' :: rest =>
      let (v, rest) ← readValue depthLimit (cs.length + 1) (skip rest)
      return (.entry key v, ← endLine? rest)
    | _ => none

def readStatements : (fuel : Nat) → List Char → Option (List Statement)
  | 0, _ => none
  | fuel + 1, cs =>
    match skipLines cs.length cs with
    | [] => some []
    | cs => do
      let (s, rest) ← readStatement cs
      return s :: (← readStatements fuel rest)

/-- Line breaks of two characters become line breaks of one. -/
def unifyBreaks : List Char → List Char
  | '\r' :: '\n' :: cs => '\n' :: unifyBreaks cs
  | c :: cs => c :: unifyBreaks cs
  | [] => []

/-- The table of a document, in front of which a byte order mark may stand. -/
def parse? (s : String) : Option (List (String × Toml)) :=
  let cs := match unifyBreaks s.toList with
    | '\ufeff' :: cs => cs
    | cs => cs
  ((readStatements (cs.length + 1) cs).bind ofStatements?).bind unspellDocument?

end LiquidityBook.Toml
