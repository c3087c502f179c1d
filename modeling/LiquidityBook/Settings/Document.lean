import LiquidityBook.Table

/-! Documents of settings, and layers of values that are laid over them. A later layer wins value
by value: tables are merged entry by entry, and anything else is replaced. -/
namespace LiquidityBook

/-- A value before it is read as a field. -/
inductive Setting where
  /-- The place of an item that no layer gives. -/
  | absent
  | bool (b : Bool)
  | integer (n : Int)
  | float (x : Float)
  | text (s : String)
  | list (items : List Setting)
  | table (entries : List (String × Setting))

namespace Setting

instance : Inhabited Setting := ⟨absent⟩

/-- The entries of a table; nothing else has any. -/
def entries : Setting → Table String Setting
  | table es => es
  | _ => []

/-- The items of a list; nothing else has any. -/
def items : Setting → List Setting
  | list ss => ss
  | _ => []

def entry (s : Setting) (name : String) : Setting := (s.entries.find? name).getD absent

mutual
/-- Lays a value over another. An empty table hides nothing. -/
def overlay (below : Setting) : Setting → Setting
  | table [] => match below with
    | absent => table []
    | s => s
  | table (e :: es) => table (overlayEntries below.entries (e :: es))
  | s => s
termination_by structural s => s

def overlayEntries (below : Table String Setting) : List (String × Setting) → Table String Setting
  | [] => below
  | (k, s) :: es => overlayEntries (below.insert k (overlay ((below.find? k).getD absent) s)) es
termination_by structural es => es
end

/-- Changes an item, counted from the end if the index is negative. A list too short is made longer. -/
def changeItem (index : Int) (f : Setting → Setting) (items : List Setting) : List Setting :=
  let n := if 0 ≤ index then index.toNat else items.length - index.natAbs
  (items ++ List.replicate (n + 1 - items.length) absent).modify n f

/-- A step from a value to one inside it. -/
inductive Step where
  | entry (name : String)
  | item (index : Int)
deriving DecidableEq

/-- Lays a value over the one at a place; an item is replaced. What is in the way gives way. -/
def put (value : Setting) : (place : List Step) → Setting → Setting
  | [], s => s.overlay value
  | .entry name :: place, s => table (s.entries.insert name (put value place (s.entry name)))
  | .item index :: place, s =>
    list (changeItem index (fun s => put value place (if place.isEmpty then absent else s)) s.items)

end Setting

/-- Values for places, in the order in which they are laid down. -/
abbrev Layer := List (List Setting.Step × Setting)

namespace Layer

/-- Lays the values of a layer into a document, in their order. -/
def applyTo (document : Setting) (layer : Layer) : Setting :=
  layer.foldl (fun s (place, value) => Setting.put value place s) document

def stack (layers : List Layer) : Setting := layers.foldl applyTo (.table [])

end Layer

end LiquidityBook
