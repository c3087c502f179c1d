import LiquidityBook.Distribution
import Mathlib.Algebra.GroupWithZero.Nat
import Mathlib.Algebra.Order.BigOperators.Group.List
import Mathlib.Algebra.Order.Group.Nat

/-! Making a distribution sum to one: what is moved, and that a distribution in order stays as it is. -/
namespace LiquidityBook.Distribution

private theorem length_topUp (deficit : Nat) (vs : List Nat) : (topUp deficit vs).1.length = vs.length := by
  induction vs with
  | nil => rfl
  | cons v vs ih =>
    simp only [topUp]
    split <;> simp [ih]

theorem length_trimEnd (excess : Nat) (vs : List Nat) : (trimEnd excess vs).1.length = vs.length := by
  induction vs with
  | nil => rfl
  | cons v vs ih => simp [trimEnd, ih]

/-- The deficit goes in whole to a list that is not all zero, and not at all to one that is. -/
theorem topUp_spec (deficit : Nat) (vs : List Nat) :
    (vs.sum = 0 ∧ topUp deficit vs = (vs, deficit)) ∨
      (vs.sum ≠ 0 ∧ (topUp deficit vs).1.sum = vs.sum + deficit ∧ (topUp deficit vs).2 = 0) := by
  induction vs with
  | nil => exact .inl ⟨rfl, rfl⟩
  | cons v vs ih =>
    simp only [topUp, List.sum_cons]
    rcases ih with ⟨hz, he⟩ | ⟨hz, hs, hl⟩
    · rw [he]
      by_cases hv : v = 0
      · simp [hv, hz]
      · refine .inr ⟨by omega, ?_, ?_⟩ <;> simp [hv]
        omega
    · rw [hl]
      by_cases hv : v = 0
      · refine .inr ⟨by omega, ?_, ?_⟩ <;> simp [hv, hs]
      · refine .inr ⟨by omega, ?_, ?_⟩ <;> simp [hv, hs]
        omega

/-- The excess is taken off as far as the list goes. -/
theorem trimEnd_spec (excess : Nat) (vs : List Nat) :
    (trimEnd excess vs).1.sum = vs.sum - excess ∧ (trimEnd excess vs).2 = excess - vs.sum := by
  induction vs with
  | nil => simp [trimEnd]
  | cons v vs ih =>
    obtain ⟨hs, hl⟩ := ih
    simp only [trimEnd, List.sum_cons, hs, hl]
    omega

private theorem trimEnd_zero (vs : List Nat) : trimEnd 0 vs = (vs, 0) := by
  induction vs with
  | nil => rfl
  | cons v vs ih => simp [trimEnd, ih]

theorem normalize_eq (vs : List Nat) :
    normalize vs =
      if vs.sum = 0 then vs
      else if vs.sum < one then (topUp (one - vs.sum) vs).1
      else (trimEnd (vs.sum - one) vs).1 := by
  have hsum : vs.foldl (· + ·) 0 = vs.sum := List.sum_eq_foldl_nat.symm
  rw [normalize, hsum]

theorem length_normalize (vs : List Nat) : (normalize vs).length = vs.length := by
  rw [normalize_eq]
  split
  · rfl
  split
  · exact length_topUp _ _
  · exact length_trimEnd _ _

theorem normalize_of_sum_eq_zero {vs : List Nat} (h : vs.sum = 0) : normalize vs = vs := by
  rw [normalize_eq, if_pos h]

/-- A distribution that is not all zero sums to one afterwards. -/
theorem sum_normalize {vs : List Nat} (h : vs.sum ≠ 0) : (normalize vs).sum = one := by
  rw [normalize_eq, if_neg h]
  split
  · rcases topUp_spec (one - vs.sum) vs with ⟨hz, _⟩ | ⟨_, hs, _⟩
    · exact absurd hz h
    · omega
  · rw [(trimEnd_spec _ _).1]
    omega

theorem normalize_of_sum_eq_one {vs : List Nat} (h : vs.sum = one) : normalize vs = vs := by
  have hne : one ≠ 0 := by decide
  rw [normalize_eq, h, if_neg hne, if_neg (Nat.lt_irrefl one), Nat.sub_self, trimEnd_zero]

theorem normalize_normalize (vs : List Nat) : normalize (normalize vs) = normalize vs := by
  by_cases h : vs.sum = 0
  · rw [normalize_of_sum_eq_zero h, normalize_of_sum_eq_zero h]
  · exact normalize_of_sum_eq_one (sum_normalize h)

theorem le_one_of_mem_normalize {vs : List Nat} {v : Nat} (h : v ∈ normalize vs) : v ≤ one := by
  by_cases hz : vs.sum = 0
  · rw [normalize_of_sum_eq_zero hz] at h
    have hv := List.sum_eq_zero_iff_forall_eq_nat.1 hz v h
    omega
  · rw [← sum_normalize hz]
    exact List.le_sum_of_mem h

end LiquidityBook.Distribution
