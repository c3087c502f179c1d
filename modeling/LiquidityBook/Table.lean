/-! Finite tables: each key stands in a table at most once. -/
namespace LiquidityBook

abbrev Table (α β : Type) := List (α × β)

namespace Table
variable {α β γ : Type} [DecidableEq α]

def find? (t : Table α β) (a : α) : Option β := (List.find? (·.1 = a) t).map (·.2)

def erase (t : Table α β) (a : α) : Table α β := t.filter (·.1 ≠ a)

/-- Adds an entry in front, in place of the one the key has. -/
def insert (t : Table α β) (a : α) (b : β) : Table α β := (a, b) :: t.erase a

/-- Adds an entry where the key has one, and behind all others if it has none. -/
def put : Table α β → α → β → Table α β
  | [], a, b => [(a, b)]
  | e :: t, a, b => if e.1 = a then (a, b) :: t else e :: put t a b

def restrict (t : Table α β) (p : α → Bool) : Table α β := t.filter (p ·.1)

def mapValues (t : Table α β) (f : β → γ) : Table α γ := t.map fun e => (e.1, f e.2)

theorem find?_nil (a : α) : find? ([] : Table α β) a = none := rfl

private theorem find?_cons (e : α × β) (t : Table α β) (a : α) :
    find? (e :: t) a = if e.1 = a then some e.2 else find? t a := by
  by_cases h : e.1 = a <;> simp [find?, h]

theorem find?_erase_self (t : Table α β) (a : α) : (t.erase a).find? a = none := by
  simp [find?, erase]

theorem erase_eq_self {t : Table α β} {a : α} (h : t.find? a = none) : t.erase a = t := by
  simpa [find?, erase, List.filter_eq_self] using h

theorem find?_erase_of_ne (t : Table α β) {a b : α} (h : a ≠ b) : (t.erase a).find? b = t.find? b := by
  induction t with
  | nil => rfl
  | cons e t ih =>
    simp only [erase] at ih
    by_cases he : e.1 = a
    · rw [find?_cons, if_neg (by rw [he]; exact h), ← ih]
      simp [erase, he]
    · have hk : erase (e :: t) a = e :: erase t a := by simp [erase, he]
      rw [hk, find?_cons, find?_cons]
      split
      · rfl
      · exact ih

theorem find?_insert_self (t : Table α β) (a : α) (b : β) : (t.insert a b).find? a = some b := by
  simp [insert, find?_cons]

theorem find?_insert_of_ne (t : Table α β) {a c : α} (b : β) (h : a ≠ c) :
    (t.insert a b).find? c = t.find? c := by
  rw [insert, find?_cons, if_neg h, find?_erase_of_ne t h]

theorem find?_filter (t : Table α β) (p : α → Bool) (a : α) :
    find? (t.filter (p ·.1)) a = if p a then t.find? a else none := by
  induction t with
  | nil => simp [find?_nil]
  | cons e t ih =>
    by_cases he : e.1 = a <;> by_cases hp : p e.1 = true <;> simp_all [find?_cons]

theorem isSome_find?_iff {t : Table α β} {a : α} : (t.find? a).isSome ↔ a ∈ t.map (·.1) := by
  simp [find?]

theorem mem_of_find?_eq_some {t : Table α β} {a : α} {b : β} (h : t.find? a = some b) : (a, b) ∈ t := by
  obtain ⟨e, he, rfl⟩ := Option.map_eq_some_iff.1 h
  have ha : e.1 = a := by simpa using List.find?_some he
  exact ha ▸ List.mem_of_find?_eq_some he

theorem find?_eq_some_of_mem {t : Table α β} (h : (t.map (·.1)).Nodup) {a : α} {b : β} (hm : (a, b) ∈ t) :
    t.find? a = some b := by
  induction t with
  | nil => cases hm
  | cons e t ih =>
    obtain ⟨he, ht⟩ := List.nodup_cons.1 h
    rw [find?_cons]
    rcases List.mem_cons.1 hm with rfl | hm
    · exact if_pos rfl
    · have hne : e.1 ≠ a := by
        rintro rfl
        exact he (List.mem_map.2 ⟨_, hm, rfl⟩)
      rw [if_neg hne]
      exact ih ht hm

omit [DecidableEq α] in
theorem nodup_filter {t : Table α β} (h : (t.map (·.1)).Nodup) (p : α × β → Bool) :
    ((t.filter p).map (·.1)).Nodup :=
  h.sublist (List.filter_sublist.map _)

theorem nodup_insert {t : Table α β} (h : (t.map (·.1)).Nodup) (a : α) (b : β) :
    ((t.insert a b).map (·.1)).Nodup := by
  refine List.nodup_cons.2 ⟨?_, nodup_filter h _⟩
  simp [erase]

theorem find?_restrict (t : Table α β) {p : α → Bool} {a : α} (h : p a) : (t.restrict p).find? a = t.find? a :=
  (find?_filter t p a).trans (if_pos h)

theorem restrict_erase (t : Table α β) (p : α → Bool) (a : α) : (t.erase a).restrict p = (t.restrict p).erase a := by
  simp only [restrict, erase, List.filter_filter, Bool.and_comm]

theorem restrict_erase_of_not (t : Table α β) {p : α → Bool} {a : α} (h : ¬ p a) :
    (t.erase a).restrict p = t.restrict p := by
  rw [erase, restrict, List.filter_filter]
  apply List.filter_congr
  intro e _
  by_cases he : e.1 = a <;> simp [he, h]

theorem restrict_insert (t : Table α β) {p : α → Bool} {a : α} (b : β) (h : p a) :
    (t.insert a b).restrict p = (t.restrict p).insert a b := by
  rw [insert, insert, ← restrict_erase]
  simp [restrict, h]

theorem restrict_insert_of_not (t : Table α β) {p : α → Bool} {a : α} (b : β) (h : ¬ p a) :
    (t.insert a b).restrict p = t.restrict p := by
  rw [insert, ← restrict_erase_of_not t h]
  simp [restrict, h]

theorem find?_mapValues (t : Table α β) (f : β → γ) (a : α) :
    (mapValues t f).find? a = (t.find? a).map f := by
  induction t with
  | nil => rfl
  | cons e t ih =>
    simp only [mapValues] at ih
    rw [mapValues, List.map_cons, find?_cons, find?_cons, ih]
    split <;> rfl

omit [DecidableEq α] in
theorem mapValues_filter (t : Table α β) (f : β → γ) (p : α → Bool) :
    mapValues (t.filter (p ·.1)) f = (mapValues t f).filter (p ·.1) := by
  simp only [mapValues, List.filter_map]
  rfl

theorem mapValues_erase (t : Table α β) (f : β → γ) (a : α) :
    mapValues (t.erase a) f = Table.erase (mapValues t f) a := mapValues_filter t f (· ≠ a)

theorem mapValues_insert (t : Table α β) (f : β → γ) (a : α) (b : β) :
    mapValues (t.insert a b) f = Table.insert (mapValues t f) a (f b) := by
  rw [insert, insert, ← mapValues_erase]
  rfl

omit [DecidableEq α] in
theorem mapValues_congr {t : Table α β} {f g : β → γ} (h : ∀ e ∈ t, f e.2 = g e.2) : mapValues t f = mapValues t g :=
  List.map_congr_left fun e he => by rw [h e he]

end Table

end LiquidityBook
