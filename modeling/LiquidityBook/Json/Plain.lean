import LiquidityBook.Json.Basic

/-! The values that typed data is written as: their numbers are integers and their texts are sound. -/
namespace LiquidityBook.Json

/-- A value without fractions or broken texts, whose objects name each member. -/
inductive Plain : Json → Prop where
  | null : Plain null
  | bool (b : Bool) : Plain (bool b)
  | int (n : Int) : Plain (int n)
  | text (s : String) : Plain (text s)
  | array {items : List Json} (h : ∀ j ∈ items, Plain j) : Plain (array items)
  | record {members : List (String × Json)} (h : ∀ m ∈ members, Plain m.2) : Plain (record members)

namespace Plain

attribute [simp] null bool int text

@[simp] theorem nat (n : Nat) : Plain (nat n) := int n

@[simp] theorem ofUInt16 (n : UInt16) : Plain (ofUInt16 n) := int _

@[simp] theorem ofUInt32 (n : UInt32) : Plain (ofUInt32 n) := int _

@[simp] theorem ofUInt64 (n : UInt64) : Plain (ofUInt64 n) := int _

@[simp] theorem ofInt32 (n : Int32) : Plain (ofInt32 n) := int _

@[simp] theorem ofList {α : Type} {f : α → Json} (h : ∀ a, Plain (f a)) (as : List α) : Plain (ofList f as) := by
  refine array fun j hj => ?_
  obtain ⟨a, _, rfl⟩ := List.mem_map.1 hj
  exact h a

@[simp] theorem ofOption {α : Type} {f : α → Json} (h : ∀ a, Plain (f a)) (a : Option α) : Plain (ofOption f a) := by
  cases a with
  | none => exact null
  | some a => exact h a

end Plain

end LiquidityBook.Json
