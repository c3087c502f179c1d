import LiquidityBook.Allocation
import LiquidityBook.Proofs.Distribution.Normalize
import LiquidityBook.Proofs.Distribution.Scale
import Mathlib.Algebra.Order.BigOperators.Group.List
import Mathlib.Data.Fintype.Card
import Mathlib.Tactic.NormNum

/-! The weights of one side of a deposit: which are accepted, and the distribution they are made into. -/
namespace LiquidityBook.Allocation
open Decimal (toRat)
open LiquidityBook.Distribution (one units normalize)

/-- The weights are in the unit interval and sum to one within the tolerance; on a side that gets
nothing they may also all be zero. -/
structure SideAccepted (weights : List Decimal) (funded : Bool) : Prop where
  inUnit : ∀ w ∈ weights, w.inUnit
  sum : |(weights.map toRat).sum - 1| ≤ 1 / 10 ^ 6 ∨ (funded = false ∧ ∀ w ∈ weights, w.isZero)

def normalized (weights : List Decimal) : List Nat := normalize (weights.map units)

variable {weights : List Decimal} {funded : Bool}

theorem length_normalized (weights : List Decimal) : (normalized weights).length = weights.length := by
  rw [normalized, Distribution.length_normalize, List.length_map]

theorem le_one_of_mem_normalized {d : Nat} (h : d ∈ normalized weights) : d ≤ one :=
  Distribution.le_one_of_mem_normalize h

private theorem nearOne_iff {sum : Decimal} (h : 0 ≤ sum.toRat) : nearOne sum ↔ |sum.toRat - 1| ≤ 1 / 10 ^ 6 := by
  have ht : tolerance.toRat = 1 / 10 ^ 6 := by simp [tolerance, Decimal.toRat_ofCoefficient]
  rw [nearOne, Bool.and_eq_true, Decimal.le_iff, Decimal.le_iff, Decimal.toRat_neg, Decimal.toRat_sub_one h, ht,
    abs_le', and_congr_right_iff]
  exact fun _ => Iff.rfl

private theorem sum_toRat_nonneg (h : ∀ w ∈ weights, 0 ≤ w.toRat) : 0 ≤ (weights.map toRat).sum :=
  List.sum_nonneg (by simpa using h)

private theorem nearOne_sum_iff (h : ∀ w ∈ weights, 0 ≤ w.toRat) :
    nearOne (Decimal.sum weights) ↔ |(weights.map toRat).sum - 1| ≤ 1 / 10 ^ 6 := by
  rcases Decimal.tracks_sum h with hs | ⟨hx, hs⟩
  · rw [nearOne_iff (hs ▸ sum_toRat_nonneg h), hs]
  · -- Above the headroom neither number is near one.
    have hfar {x : ℚ} (hx : (Decimal.headroom : ℚ) ≤ x) : ¬ |x - 1| ≤ 1 / 10 ^ 6 := by
      simp only [Decimal.headroom] at hx
      rw [abs_le]
      intro hle
      norm_num at hx hle
      linarith [hle.2]
    rw [nearOne_iff ((Nat.cast_nonneg _).trans hs), iff_false_intro (hfar hs), iff_false_intro (hfar hx)]

theorem sum_toRat_eq_zero_iff (h : ∀ w ∈ weights, 0 ≤ w.toRat) :
    (weights.map toRat).sum = 0 ↔ ∀ w ∈ weights, w.isZero := by
  constructor
  · intro hs w hw
    have hz := List.all_zero_of_le_zero_le_of_sum_eq_zero (by simpa using h) hs (List.mem_map_of_mem hw)
    exact Decimal.toRat_eq_zero_iff.1 hz
  · intro hz
    apply List.sum_eq_zero
    intro x hx
    obtain ⟨w, hw, rfl⟩ := List.mem_map.1 hx
    exact Decimal.toRat_eq_zero_iff.2 (hz w hw)

private theorem isZero_sum_iff (h : ∀ w ∈ weights, 0 ≤ w.toRat) :
    (Decimal.sum weights).isZero ↔ ∀ w ∈ weights, w.isZero := by
  rw [← Decimal.toRat_eq_zero_iff, ← sum_toRat_eq_zero_iff h]
  have hpos : (0 : ℚ) < Decimal.headroom := by norm_num [Decimal.headroom]
  rcases Decimal.tracks_sum h with hs | ⟨hx, hs⟩
  · rw [hs]
  · exact iff_of_false (by linarith) (by linarith)

theorem checkSide_eq_ok_iff {side : Char} {u : Unit} :
    checkSide side weights funded = .ok u ↔ SideAccepted weights funded := by
  unfold checkSide
  cases hf : weights.find? (!·.inUnit) with
  | some w =>
    have hw := List.find?_some hf
    have hmem := List.mem_of_find?_eq_some hf
    refine iff_of_false nofun fun h => ?_
    rw [h.inUnit w hmem] at hw
    exact absurd hw (by decide)
  | none =>
    have hu : ∀ w ∈ weights, w.inUnit := by simpa using List.find?_eq_none.1 hf
    have h0 : ∀ w ∈ weights, 0 ≤ w.toRat := fun w hw => (Decimal.inUnit_iff.1 (hu w hw)).1
    have hsum : (nearOne (Decimal.sum weights) || (!funded && (Decimal.sum weights).isZero)) ↔
        |(weights.map toRat).sum - 1| ≤ 1 / 10 ^ 6 ∨ (funded = false ∧ ∀ w ∈ weights, w.isZero) := by
      rw [Bool.or_eq_true, Bool.and_eq_true, nearOne_sum_iff h0, isZero_sum_iff h0, Bool.not_eq_true']
    by_cases hs : nearOne (Decimal.sum weights) || (!funded && (Decimal.sum weights).isZero)
    · exact iff_of_true (if_pos hs) ⟨hu, hsum.1 hs⟩
    · simp only [hs]
      exact iff_of_false nofun fun h => hs (hsum.2 h.sum)

namespace SideAccepted

theorem nonneg (h : SideAccepted weights funded) : ∀ w ∈ weights, 0 ≤ w.toRat :=
  fun w hw => (Decimal.inUnit_iff.1 (h.inUnit w hw)).1

theorem distribution_eq (h : SideAccepted weights funded) :
    distribution weights = .ok (normalized weights) := by
  rw [distribution, Distribution.mapM_ofWeight h.inUnit]
  rfl

theorem sum_units_le (h : SideAccepted weights funded) : (weights.map units).sum ≤ one + one / 10 ^ 6 := by
  have hle : ((weights.map units).sum : ℚ) ≤ (1 + 1 / 10 ^ 6) * one := by
    refine (Distribution.sum_units_bounds h.nonneg).1.trans (mul_le_mul_of_nonneg_right ?_ (Nat.cast_nonneg _))
    rcases h.sum with hs | ⟨_, hz⟩
    · have := (abs_le.1 hs).2
      linarith
    · rw [(sum_toRat_eq_zero_iff h.nonneg).2 hz]
      norm_num
  have hone : (1 + 1 / 10 ^ 6 : ℚ) * one = (one + one / 10 ^ 6 : Nat) := by norm_num [one]
  exact_mod_cast hone ▸ hle

/-- What is cut off the weights of up to `2 ^ 32` bins is less than what the tolerance leaves of one. -/
private theorem sum_units_eq_zero_iff (h : SideAccepted weights funded) (hlen : weights.length ≤ 2 ^ 32) :
    (weights.map units).sum = 0 ↔ ∀ w ∈ weights, w.isZero := by
  obtain ⟨hlow, hhigh⟩ := Distribution.sum_units_bounds h.nonneg
  constructor
  · intro hu
    rcases h.sum with hs | ⟨_, hz⟩
    · have hone : (one : ℚ) = 10 ^ 18 := by norm_num [one]
      have hlen' : (weights.length : ℚ) ≤ 4294967296 := by exact_mod_cast hlen
      have hge := (abs_le.1 hs).1
      rw [hu, hone] at hhigh
      norm_num at hhigh hge
      linarith
    · exact hz
  · intro hz
    rw [(sum_toRat_eq_zero_iff h.nonneg).2 hz, zero_mul] at hlow
    exact Nat.le_zero.1 (by exact_mod_cast hlow)

theorem normalized_cases {funded : Bool} (h : SideAccepted weights funded) (hlen : weights.length ≤ 2 ^ 32) :
    ((∀ w ∈ weights, w.isZero) ∧ ∀ d ∈ normalized weights, d = 0) ∨
      ((∃ w ∈ weights, ¬ w.isZero) ∧ (normalized weights).sum = one) := by
  by_cases hz : (weights.map units).sum = 0
  · refine .inl ⟨(h.sum_units_eq_zero_iff hlen).1 hz, ?_⟩
    rw [normalized, Distribution.normalize_of_sum_eq_zero hz]
    exact List.sum_eq_zero_iff_forall_eq_nat.1 hz
  · refine .inr ⟨?_, Distribution.sum_normalize hz⟩
    by_contra hn
    push Not at hn
    exact hz ((h.sum_units_eq_zero_iff hlen).2 hn)

theorem exists_not_isZero (h : SideAccepted weights true) : ∃ w ∈ weights, ¬ w.isZero := by
  by_contra hz
  push Not at hz
  rcases h.sum with hs | ⟨hf, _⟩
  · rw [(sum_toRat_eq_zero_iff h.nonneg).2 hz] at hs
    norm_num at hs
  · cases hf

end SideAccepted

end LiquidityBook.Allocation
