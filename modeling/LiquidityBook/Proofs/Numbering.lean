import Mathlib.Data.List.Basic

/-! Numbers of things of one kind. Where a list is cut down to one kind of element, each element that stays is found
under its rank: the number of elements of its kind in front of it. -/
namespace LiquidityBook
variable {α β : Type} {p : α → Bool} {l m : List α} {i j : Nat} {a : α}

/-- How many of the elements in front of the i-th are of the kind. -/
def rank (p : α → Bool) (l : List α) (i : Nat) : Nat := (l.take i).countP p

theorem rank_length (p : α → Bool) (l : List α) : rank p l l.length = (l.filter p).length := by
  rw [rank, List.take_length, List.countP_eq_length_filter]

theorem rank_map (p : β → Bool) (f : α → β) (l : List α) (i : Nat) : rank p (l.map f) i = rank (p ∘ f) l i := by
  rw [rank, ← List.map_take, List.countP_map, rank]

theorem getElem?_of_prefix (h : l <+: m) (hi : l[i]? = some a) : m[i]? = some a := by
  obtain ⟨hn, rfl⟩ := List.getElem?_eq_some_iff.1 hi
  exact List.prefix_iff_getElem?.1 h i hn

/-- Elements that come later change no rank. -/
theorem rank_of_prefix (h : l <+: m) (hi : i ≤ l.length) : rank p m i = rank p l i := by
  obtain ⟨_, rfl⟩ := h
  rw [rank, List.take_append_of_le_length hi, rank]

theorem getElem?_filter_rank (h : l[i]? = some a) (hp : p a) : (l.filter p)[rank p l i]? = some a := by
  induction l generalizing i with
  | nil => cases h
  | cons b l ih =>
    cases i with
    | zero =>
      cases h
      simp [rank, hp]
    | succ i =>
      have hl := ih h
      by_cases hb : p b <;> simpa [rank, List.filter_cons, hb] using hl

/-- To change an element that is and stays of the kind is to change it under its rank. -/
theorem filter_modify {f : α → α} (h : l[i]? = some a) (hp : p a) (hf : p (f a)) :
    (l.modify i f).filter p = (l.filter p).modify (rank p l i) f := by
  induction l generalizing i with
  | nil => cases h
  | cons b l ih =>
    cases i with
    | zero =>
      cases h
      simp [rank, hp, hf]
    | succ i =>
      have hl := ih h
      by_cases hb : p b <;> simpa [rank, List.filter_cons, hb] using hl

/-- An element that is not of the kind and does not come to be is not missed. -/
theorem filter_modify_of_not {f : α → α} (h : ∀ b, l[i]? = some b → ¬ p b ∧ ¬ p (f b)) :
    (l.modify i f).filter p = l.filter p := by
  induction l generalizing i with
  | nil => simp
  | cons b l ih =>
    cases i with
    | zero =>
      obtain ⟨hb, hf⟩ := h b rfl
      simp [hb, hf]
    | succ i => simp [List.filter_cons, ih h]

/-- Elements that are changed alike before and after a change of one of them. -/
theorem map_modify {f : α → α} (g : α → β) (f' : β → β) (h : ∀ b, g (f b) = f' (g b)) (l : List α) (i : Nat) :
    (l.modify i f).map g = (l.map g).modify i f' := by
  induction l generalizing i with
  | nil => simp
  | cons b l ih =>
    cases i with
    | zero => simp [h]
    | succ i => simp [ih]

end LiquidityBook
