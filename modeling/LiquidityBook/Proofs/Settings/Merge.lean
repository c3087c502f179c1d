import LiquidityBook.Settings.Document

/-! What layers give for a value inside a document. A layer that has nothing but tables on the way to the value leaves
the last one it gives for it, and where it gives none, the value stays as the layers below leave it. -/
namespace LiquidityBook

namespace Setting

/-- The value at the end of a path through tables. -/
def lookup? : (path : List String) → Setting → Option Setting
  | [], s => some s
  | n :: path, s => (s.entries.find? n).bind (lookup? path)

/-- The values that a value gives for the end of a path, one for each entry that gives one. A table is no such value. -/
def values : (path : List String) → Setting → List Setting
  | [], table _ => []
  | [], s => [s]
  | n :: path, s => s.entries.flatMap fun e => if e.1 = n then values path e.2 else []

/-- Whether a value has only tables on the way along a path. -/
def isOpen : (path : List String) → Setting → Bool
  | [], _ => true
  | n :: path, table es => es.all fun e => e.1 != n || isOpen path e.2
  | _ :: _, _ => false

/-- The values that a value gives for the end of a path if it is laid at a place. -/
def valuesAt (value : Setting) : (place : List Step) → (path : List String) → List Setting
  | [], path => value.values path
  | .entry m :: place, n :: path => if m = n then valuesAt value place path else []
  | _, _ => []

/-- Whether there are only tables on the way along a path if a value is laid at a place. -/
def isOpenAt (value : Setting) : (place : List Step) → (path : List String) → Bool
  | [], path => value.isOpen path
  | .entry m :: place, n :: path => m != n || isOpenAt value place path
  | .item _ :: _, _ :: _ => false
  | _ :: _, [] => true

/-- Whether a place is in an item of what is at the end of a path. -/
def Step.entersItem : (place : List Step) → (path : List String) → Bool
  | .item _ :: _, [] => true
  | .entry m :: place, n :: path => m == n && entersItem place path
  | _, _ => false

end Setting

namespace Layer
open Setting

/-- The values that a layer gives for the end of a path, in their order. -/
def values (path : List String) (layer : Layer) : List Setting := layer.flatMap fun e => e.2.valuesAt e.1 path

/-- Whether a layer has only tables on the way along a path. -/
def isOpen (path : List String) (layer : Layer) : Bool := layer.all fun (place, value) => value.isOpenAt place path

/-- Whether a layer has something for an item of what is at the end of a path. -/
def entersItem (path : List String) (layer : Layer) : Bool := layer.any fun e => Step.entersItem e.1 path

end Layer

namespace Setting

/-- At the end of a path is the value that was given for it, or one that does not count; nothing is said if none was
given. -/
def Bears (loose : Setting → Prop) (path : List String) (given : Option Setting) (s : Setting) : Prop :=
  ∀ v ∈ given, ∃ x, s.lookup? path = some x ∧ (x = v ∨ loose x)

namespace Bears
variable {loose : Setting → Prop} {n k : String} {path : List String} {given : Option Setting} {s value : Setting}
  {t : Table String Setting}

private theorem entry (h : Bears loose (n :: path) given s) : Bears loose path given (s.entry n) := by
  intro v hv
  obtain ⟨x, hx, hxv⟩ := h v hv
  obtain ⟨y, hy, hyx⟩ := Option.bind_eq_some_iff.1 hx
  refine ⟨x, ?_, hxv⟩
  rw [Setting.entry, hy]
  exact hyx

private theorem insert_self (h : Bears loose path given s) : Bears loose (n :: path) given (table (t.insert n s)) := by
  intro v hv
  obtain ⟨x, hx, hxv⟩ := h v hv
  refine ⟨x, ?_, hxv⟩
  rw [lookup?, entries, Table.find?_insert_self]
  exact hx

private theorem insert_of_ne (hk : k ≠ n) (h : Bears loose (n :: path) given (table t)) :
    Bears loose (n :: path) given (table (t.insert k s)) := by
  intro v hv
  obtain ⟨x, hx, hxv⟩ := h v hv
  refine ⟨x, ?_, hxv⟩
  rw [lookup?, entries, Table.find?_insert_of_ne _ _ hk]
  exact hx

/-- A value that does not count is as good as any. -/
private theorem of_loose (h : loose s) : Bears loose [] given s := fun _ _ => ⟨s, rfl, .inr h⟩

private theorem overlayEntries {es : List (String × Setting)}
    (hone : ∀ {below value : Setting} {given : Option Setting}, Bears loose path given below → value.isOpen path →
      Bears loose path ((value.values path).getLast?.or given) (below.overlay value))
    (h : Bears loose (n :: path) given (table t)) (ho : (table es).isOpen (n :: path)) :
    Bears loose (n :: path) (((table es).values (n :: path)).getLast?.or given)
      (table (Setting.overlayEntries t es)) := by
  induction es generalizing t given with
  | nil => exact h
  | cons e es ih =>
    obtain ⟨k, s⟩ := e
    simp only [isOpen, List.all_cons, Bool.and_eq_true, Bool.or_eq_true, bne_iff_ne] at ho
    have hlast : (table ((k, s) :: es)).values (n :: path) =
        (if k = n then s.values path else []) ++ (table es).values (n :: path) := List.flatMap_cons
    rw [hlast, List.getLast?_append, Option.or_assoc, Setting.overlayEntries]
    refine ih ?_ (by simpa [isOpen] using ho.2)
    by_cases hk : k = n
    · subst hk
      rw [if_pos rfl]
      exact insert_self (hone h.entry (ho.1.resolve_left (fun hne => hne rfl)))
    · rw [if_neg hk, List.getLast?_nil, Option.none_or]
      exact insert_of_ne hk h

private theorem overlay (hloose : ∀ es, loose (table es)) {below : Setting} (h : Bears loose path given below)
    (ho : value.isOpen path) : Bears loose path ((value.values path).getLast?.or given) (below.overlay value) := by
  induction path generalizing value below given with
  | nil =>
    match value with
    | table [] =>
      cases below with
      | absent => exact of_loose (hloose [])
      | _ => exact h
    -- whatever was there, a table is there now
    | table (e :: es) => exact of_loose (hloose _)
    | absent | bool _ | integer _ | float _ | text _ | list _ =>
      rintro v ⟨⟩
      exact ⟨_, rfl, .inl rfl⟩
  | cons n path ih =>
    match value with
    -- an empty table changes nothing but an absent value, which has nothing inside it
    | table [] =>
      intro v hv
      obtain ⟨x, hx, hxv⟩ := h v hv
      cases below with
      | absent => cases hx
      | _ => exact ⟨x, hx, hxv⟩
    | table (e :: es) => exact overlayEntries ih h ho
    | absent | bool _ | integer _ | float _ | text _ | list _ => cases ho

/-- So does laying it at a place. An item of what is at the end of the path makes that a list. -/
private theorem put (hloose : ∀ es, loose (table es)) {place : List Step}
    (hitem : Step.entersItem place path → ∀ items, loose (list items)) (h : Bears loose path given s)
    (ho : value.isOpenAt place path) :
    Bears loose path ((value.valuesAt place path).getLast?.or given) (Setting.put value place s) := by
  induction place generalizing path s with
  | nil => exact overlay hloose h ho
  | cons step place ih =>
    match step, path with
    | .entry m, [] => exact of_loose (hloose _)
    | .item i, [] => exact of_loose (hitem rfl _)
    | .item i, n :: path => cases ho
    | .entry m, n :: path =>
      simp only [isOpenAt, Bool.or_eq_true, bne_iff_ne] at ho
      by_cases hm : m = n
      · subst hm
        rw [valuesAt, if_pos rfl]
        refine insert_self (ih (fun hi => hitem ?_) h.entry (ho.resolve_left (fun hne => hne rfl)))
        simpa [Step.entersItem] using hi
      · rw [valuesAt, if_neg hm, List.getLast?_nil, Option.none_or]
        exact insert_of_ne hm h

end Bears

end Setting

namespace Layer
open Setting
variable {loose : Setting → Prop} {path : List String} {given : Option Setting} {document : Setting} {layer : Layer}

theorem values_cons (path : List String) (place : List Step) (value : Setting) (layer : Layer) :
    values path ((place, value) :: layer) = value.valuesAt place path ++ values path layer :=
  List.flatMap_cons

theorem bears_applyTo (hloose : ∀ es, loose (table es))
    (hitem : layer.entersItem path → ∀ items, loose (list items)) (h : Bears loose path given document)
    (ho : layer.isOpen path) : Bears loose path ((layer.values path).getLast?.or given) (applyTo document layer) := by
  induction layer generalizing document given with
  | nil => exact h
  | cons e layer ih =>
    obtain ⟨place, value⟩ := e
    simp only [isOpen, List.all_cons, Bool.and_eq_true] at ho
    simp only [entersItem, List.any_cons, Bool.or_eq_true] at hitem
    rw [values_cons, List.getLast?_append, Option.or_assoc]
    exact ih (fun hi => hitem (.inr hi)) (h.put hloose (fun hi => hitem (.inl hi)) ho.1) ho.2

end Layer

end LiquidityBook
