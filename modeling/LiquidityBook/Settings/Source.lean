import LiquidityBook.Binary64.Text
import LiquidityBook.Settings.Place
import LiquidityBook.Toml.Basic

/-! The layers that files and environment variables give. Names count in lower case, but for those
of tables in a list, which count as they are written. -/
namespace LiquidityBook

/-- The lower case of a character in so far as it is ASCII, as that of the Kelvin sign is. -/
def lowerChar (c : Char) : Char := if c = '\u212a' then 'k' else c.toLower

def lowerName (s : String) : String := String.ofList (s.toList.map lowerChar)

namespace Setting

mutual
/-- A value of a file, with `name` for the names of its entries. A list has its names as written. -/
def ofToml (name : String → String) : Toml → Setting
  | .string s => text s
  | .integer n => integer n
  | .float x => float x
  | .bool b => bool b
  | .moment s => text s
  | .array items => list (ofTomlItems items)
  | .table entries => table (ofTomlEntries name entries)
termination_by structural t => t

def ofTomlItems : List Toml → List Setting
  | [] => []
  | t :: ts => ofToml id t :: ofTomlItems ts
termination_by structural ts => ts

def ofTomlEntries (name : String → String) : List (String × Toml) → List (String × Setting)
  | [] => []
  | (k, t) :: es => (name k, ofToml name t) :: ofTomlEntries name es
termination_by structural es => es
end

/-- A value of an environment variable: a boolean, an integer or a number where its text is that of
one. -/
def ofVariable (value : String) : Setting :=
  match String.ofList (value.toList.map Char.toLower) with
  | "true" => bool true
  | "false" => bool false
  | _ =>
    match Digits.readInt64? value.toList with
    | some n => integer n
    | none =>
      match Binary64.read? value with
      | some x => float x
      | none => text value

end Setting

/-- The variables of a block of texts `NAME=value`, each ended by a zero character. -/
def variablesOfBlock (block : String) : List (String × String) :=
  ((block.toList.splitOnP (· == '\x00')).filter (·.contains '=')).map fun cs =>
    (String.ofList (cs.takeWhile (· != '=')), String.ofList ((cs.dropWhile (· != '=')).drop 1))

namespace Layer

/-- The layer of a file. A value for an item of a list is like one inside the list. The entries keep the order of the
file, but entries for one and the same place come in no order that could be relied on. -/
def ofToml (entries : List (String × Toml)) : Layer :=
  entries.map fun (key, value) =>
    let place := Setting.Step.ofName (lowerName key)
    match place.getLast? with
    | some (.item _) => (place, Setting.ofToml id value)
    | _ => (place, Setting.ofToml lowerName value)

/-- Two underscores in a row stand for a point. -/
def joinPoints : List Char → List Char
  | '_' :: '_' :: cs => '.' :: joinPoints cs
  | c :: cs => c :: joinPoints cs
  | [] => []

/-- The place that an environment variable is for, if its name has the prefix. -/
def variablePlace? (envPrefix name : String) : Option (List Setting.Step) :=
  let lead := (lowerName envPrefix).toList ++ ['_', '_']
  let cs := (lowerName name).toList
  if lead.isPrefixOf cs then some (Setting.Step.ofName (String.ofList (joinPoints (cs.drop lead.length))))
  else none

def ofEnvironment (envPrefix : String) (env : List (String × String)) : Layer :=
  env.filterMap fun (name, value) => (variablePlace? envPrefix name).map (·, Setting.ofVariable value)

end Layer

end LiquidityBook
