import LiquidityBook.Digits
import LiquidityBook.Toml.Basic

/-! Dates and times. They are written as words, or spelled out: a table whose first key is
`$__toml_private_datetime` stands for the date or time in its text. -/
namespace LiquidityBook.Toml

def pair? (low high : Nat) (a b : Char) : Option Nat :=
  let n := Digits.value [a, b]
  if a.isDigit && b.isDigit && low ≤ n && n ≤ high then some n else none

def monthLength (year month : Nat) : Nat :=
  if month = 2 then
    if year % 4 = 0 ∧ (year % 100 ≠ 0 ∨ year % 400 = 0) then 29 else 28
  else if month = 4 ∨ month = 6 ∨ month = 9 ∨ month = 11 then 30
  else 31

def date? : List Char → Option (List Char × List Char)
  | y :: y' :: y'' :: y''' :: '-' :: m :: m' :: '-' :: d :: d' :: rest => do
    let year := [y, y', y'', y''']
    if !year.all Char.isDigit then none
    let month ← pair? 1 12 m m'
    let _ ← pair? 1 (monthLength (Digits.value year) month) d d'
    return (year ++ ['-', m, m', '-', d, d'], rest)
  | _ => none

/-- A time, and what follows it. Nine digits of its fraction are kept, without zeros at the end. -/
def time? : List Char → Option (List Char × List Char)
  | h :: h' :: ':' :: m :: m' :: ':' :: s :: s' :: rest => do
    let _ ← pair? 0 23 h h'
    let _ ← pair? 0 59 m m'
    let _ ← pair? 0 60 s s'
    let clock := [h, h', ':', m, m', ':', s, s']
    match rest with
    | '.' :: cs =>
      let ds := cs.takeWhile Char.isDigit
      if ds.isEmpty then none
      let kept := Digits.trimTrailingZeros (ds.take 9)
      return (clock ++ (if kept.isEmpty then [] else '.' :: kept), cs.dropWhile Char.isDigit)
    | rest => return (clock, rest)
  | _ => none

/-- The distance of a local time from universal time, which has the sign plus when it is zero. -/
def offset? : List Char → Option (List Char)
  | [] => some []
  | ['Z'] | ['z'] => some ['Z']
  | [sign, h, h', ':', m, m'] => do
    if sign != '+' && sign != '-' then none
    let hours ← pair? 0 23 h h'
    let minutes ← pair? 0 59 m m'
    return (if hours = 0 ∧ minutes = 0 then '+' else sign) :: [h, h', ':', m, m']
  | _ => none

/-- A date with or without a time, or a time alone. -/
def moment? (cs : List Char) : Option Toml :=
  match date? cs with
  | some (date, []) => some (.moment (String.ofList date))
  | some (date, mark :: rest) => do
    if mark != 'T' && mark != 't' && mark != ' ' then none
    let (time, rest) ← time? rest
    return .moment (String.ofList (date ++ 'T' :: time ++ (← offset? rest)))
  | none =>
    match time? cs with
    | some (time, []) => some (.moment (String.ofList time))
    | _ => none

/-- Whether the entries spell out a date or a time. Only the first of them counts. -/
def spellMoment (entries : List (String × Toml)) : Bool :=
  entries.head?.any (·.1 == "$__toml_private_datetime")

/-- The date or time that entries spell out. -/
def spelledMoment? (entries : List (String × Toml)) : Option Toml :=
  match entries.head? with
  | some (_, string s) => moment? s.toList
  | _ => none

mutual
/-- The value in which dates and times that are spelled out have become values. -/
def unspell? : Toml → Option Toml
  | array items => (unspellItems? items).map array
  | table entries =>
    if spellMoment entries then spelledMoment? entries else (unspellEntries? entries).map table
  | v => some v
termination_by structural v => v

def unspellItems? : List Toml → Option (List Toml)
  | [] => some []
  | v :: vs => do return (← unspell? v) :: (← unspellItems? vs)
termination_by structural vs => vs

def unspellEntries? : List (String × Toml) → Option (List (String × Toml))
  | [] => some []
  | (k, v) :: es => do return (k, ← unspell? v) :: (← unspellEntries? es)
termination_by structural es => es
end

/-- The entries of a document, which is itself no date or time. -/
def unspellDocument? (entries : List (String × Toml)) : Option (List (String × Toml)) :=
  if spellMoment entries then none else unspellEntries? entries

end LiquidityBook.Toml
