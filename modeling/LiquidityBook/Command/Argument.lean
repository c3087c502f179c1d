import LiquidityBook.Binary64.Text

/-! Arguments of a command, sorted one by one into options and positional values. -/
namespace LiquidityBook.Command

/-- Why no command is to be carried out. -/
inductive Stop where
  | usage
  | help
  | version
deriving DecidableEq

/-- An option that a command knows. -/
structure OptionForm where
  name : String
  /-- How many values it takes; a flag takes none. -/
  size : Nat
  repeatable : Bool
  accepts : String → Bool

namespace OptionForm

def flag (name : String) : OptionForm := ⟨name, 0, false, fun _ => true⟩

def single {α : Type} (name : String) (read : String → Option α) : OptionForm :=
  ⟨name, 1, false, fun s => (read s).isSome⟩

def many {α : Type} (name : String) (size : Nat) (read : String → Option α) : OptionForm :=
  ⟨name, size, true, fun s => (read s).isSome⟩

end OptionForm

/-- What a command takes: its options, and one test for each positional value. -/
structure Form where
  options : List OptionForm
  positionals : List (String → Bool)

/-- The arguments so far. -/
structure Given where
  /-- Each use of an option with its values. -/
  options : List (String × List String)
  positionals : List String
  /-- The option whose values are still coming, and those it has. -/
  pending : Option (OptionForm × List String)
  /-- Whether what follows is no option. -/
  plain : Bool

namespace Given

def empty : Given := ⟨[], [], none, false⟩

/-- A lone hyphen is a value like any other. -/
def looksLikeOption (arg : String) : Bool := arg.startsWith "-" && arg != "-"

def addOption (g : Given) (form : OptionForm) (values : List String) : Except Stop Given :=
  if !form.repeatable && g.options.any (·.1 == form.name) then .error .usage
  else .ok { g with options := g.options ++ [(form.name, values)], pending := none }

def addPositional (form : Form) (g : Given) (arg : String) : Except Stop Given :=
  match form.positionals[g.positionals.length]? with
  | some accepts => if accepts arg then .ok { g with positionals := g.positionals ++ [arg] } else .error .usage
  | none => .error .usage

def addValue (g : Given) (form : OptionForm) (values : List String) (arg : String) : Except Stop Given :=
  if !form.accepts arg then .error .usage
  else if values.length + 1 < form.size then .ok { g with pending := some (form, values ++ [arg]) }
  else g.addOption form (values ++ [arg])

/-- The name of a long option and the value that an equals sign attaches to it. -/
def splitLong (arg : String) : String × Option String :=
  let cs := arg.toList.drop 2
  let name := String.ofList (cs.takeWhile (· != '='))
  match cs.dropWhile (· != '=') with
  | [] => (name, none)
  | _ :: value => (name, some (String.ofList value))

def addLong (form : Form) (g : Given) (arg : String) : Except Stop Given :=
  match splitLong arg with
  | ("help", none) => .error .help
  | (name, attached) =>
    match form.options.find? (·.name == name), attached with
    | none, _ => .error .usage
    | some option, none =>
      if option.size = 0 then g.addOption option [] else .ok { g with pending := some (option, []) }
    | some option, some value => if option.size = 1 then g.addValue option [] value else .error .usage

def step (form : Form) (g : Given) (arg : String) : Except Stop Given :=
  if g.plain then g.addPositional form arg
  else
    match g.pending with
    | some (option, values) =>
      if looksLikeOption arg then .error .usage else g.addValue option values arg
    | none =>
      if arg = "--" then .ok { g with plain := true }
      else if arg.startsWith "--" then g.addLong form arg
      else if looksLikeOption arg then .error (if arg.startsWith "-h" then .help else .usage)
      else g.addPositional form arg

def ofArguments (form : Form) (args : List String) : Except Stop Given := do
  let g ← args.foldlM (step form) empty
  if g.pending.isSome then throw .usage
  return g

def values (g : Given) (name : String) : List String :=
  (g.options.filter (·.1 == name)).flatMap (·.2)

def has (g : Given) (name : String) : Bool := g.options.any (·.1 == name)

def optional {α : Type} (read : String → Option α) (name : String) (g : Given) : Option (Option α) :=
  match g.values name with
  | [] => some none
  | s :: _ => (read s).map some

def required {α : Type} (read : String → Option α) (name : String) (g : Given) : Option α :=
  (g.values name).head?.bind read

def defaulted {α : Type} (read : String → Option α) (name : String) (value : α) (g : Given) : Option α :=
  (optional read name g).map (·.getD value)

def positional {α : Type} (read : String → Option α) (n : Nat) (g : Given) : Option α :=
  g.positionals[n]?.bind read

end Given

def readPath? (s : String) : Option String := if s.isEmpty then none else some s

/-- An integer below `2 ^ bits`, of at most 32 bits. -/
def readBelow? (bits : Nat) (s : String) : Option Nat := do
  let n ← Digits.readInt? s.toList
  if 0 ≤ n ∧ n < 2 ^ bits then some n.toNat else none

def readUInt8? (s : String) : Option UInt8 := (readBelow? 8 s).map UInt8.ofNat

def readUInt16? (s : String) : Option UInt16 := (readBelow? 16 s).map UInt16.ofNat

def readUInt32? (s : String) : Option UInt32 := (readBelow? 32 s).map UInt32.ofNat

/-- Unlike the narrower ones, this has no minus sign, even before a zero. -/
def readUInt64? (s : String) : Option UInt64 := do
  let n ← Digits.readNat? s.toList
  if n < 2 ^ 64 then some (UInt64.ofNat n) else none

end LiquidityBook.Command
