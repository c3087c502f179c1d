import LiquidityBook.Table

/-! TOML values, and how the statements of a document build up its table. Each key is given once;
a table may be opened by its header or spread over dotted keys, but not both. Entries stand in the
order in which their keys come. -/
namespace LiquidityBook

/-- A value. A date or a time is kept as its text. -/
inductive Toml where
  | string (s : String)
  | integer (n : Int)
  | float (x : Float)
  | bool (b : Bool)
  | moment (text : String)
  | array (items : List Toml)
  | table (entries : List (String × Toml))

namespace Toml

instance : Inhabited Toml := ⟨table []⟩

/-- A key, behind those of the tables that lead to it. -/
structure Key where
  parents : List String
  name : String
deriving DecidableEq

namespace Key

def ofParts? (parts : List String) : Option Key :=
  parts.getLast?.map fun name => ⟨parts.dropLast, name⟩

def path (k : Key) : List String := k.parents ++ [k.name]

end Key

/-- How a table came into a document. -/
inductive Origin where
  /-- By a header of its own, or as the document itself. -/
  | opened
  /-- On the way to the table of a header. -/
  | passed
  /-- On the way to a dotted key. -/
  | dotted
deriving DecidableEq

/-- A value while its document is being read. The tables of an array have the latest in front. -/
inductive Draft where
  | value (v : Toml)
  | table (origin : Origin) (entries : List (String × Draft))
  | tables (items : List (List (String × Draft)))

namespace Draft

mutual
def toToml : Draft → Toml
  | value v => v
  | table _ entries => .table (entriesToToml entries)
  | tables items => .array (itemsToToml items).reverse
termination_by structural d => d

def entriesToToml : List (String × Draft) → List (String × Toml)
  | [] => []
  | (k, d) :: es => (k, toToml d) :: entriesToToml es
termination_by structural es => es

def itemsToToml : List (List (String × Draft)) → List Toml
  | [] => []
  | es :: items => .table (entriesToToml es) :: itemsToToml items
termination_by structural items => items
end

/-- Changes the table at a path. Missing tables on the way are made, of origin `made`; an array of
tables is entered at its latest. Dotted keys do not enter a table that has a header. -/
def change (made : Origin) (f : Origin → Table String Draft → Option (Table String Draft)) :
    (path : List String) → Origin → Table String Draft → Option (Table String Draft)
  | [], origin, entries => f origin entries
  | k :: path, _, entries =>
    match entries.find? k with
    | none => (change made f path made []).map fun inner => entries.put k (.table made inner)
    | some (table origin inner) =>
      if made = .dotted ∧ origin = .opened then none
      else (change made f path origin inner).map fun inner => entries.put k (.table origin inner)
    | some (tables (latest :: earlier)) =>
      (change made f path .opened latest).map fun latest => entries.put k (.tables (latest :: earlier))
    | some _ => none

def give (key : Key) (v : Toml) (entries : Table String Draft) : Option (Table String Draft) :=
  let add := fun (origin : Origin) (entries : Table String Draft) =>
    if (origin = .dotted ∨ key.parents.isEmpty) ∧ (entries.find? key.name).isNone then
      some (entries.put key.name (.value v))
    else none
  change .dotted add key.parents .opened entries

/-- Opens a table that has had no header yet. It stands where its header is. -/
def openTable (key : Key) (entries : Table String Draft) : Option (Table String Draft) :=
  let add := fun (_ : Origin) (entries : Table String Draft) =>
    match entries.find? key.name with
    | none => some (entries.put key.name (.table .opened []))
    | some (table .passed inner) =>
      some (Table.put (entries.erase key.name) key.name (.table .opened inner))
    | some _ => none
  change .passed add key.parents .opened entries

/-- Opens one more table of an array. -/
def openItem (key : Key) (entries : Table String Draft) : Option (Table String Draft) :=
  let add := fun (_ : Origin) (entries : Table String Draft) =>
    match entries.find? key.name with
    | none => some (entries.put key.name (.tables [[]]))
    | some (tables items) => some (entries.put key.name (.tables ([] :: items)))
    | some _ => none
  change .passed add key.parents .opened entries

end Draft

/-- A line of a document. -/
inductive Statement where
  | entry (key : Key) (value : Toml)
  | header (key : Key)
  | item (key : Key)

/-- A document up to some line, with the path of the table that is open there. -/
structure Opened where
  root : Table String Draft
  here : List String

namespace Opened

def step (d : Opened) : Statement → Option Opened
  | .entry key v =>
    (Draft.change .passed (fun _ entries => Draft.give key v entries) d.here .opened d.root).map
      (⟨·, d.here⟩)
  | .header key => (Draft.openTable key d.root).map (⟨·, key.path⟩)
  | .item key => (Draft.openItem key d.root).map (⟨·, key.path⟩)

end Opened

def ofStatements? (statements : List Statement) : Option (List (String × Toml)) :=
  (statements.foldlM Opened.step ⟨[], []⟩).map (Draft.entriesToToml ·.root)

def ofEntries? (entries : List (Key × Toml)) : Option Toml :=
  (entries.foldlM (fun root (key, v) => Draft.give key v root) ([] : Table String Draft)).map
    fun root => table (Draft.entriesToToml root)

end Toml

end LiquidityBook
