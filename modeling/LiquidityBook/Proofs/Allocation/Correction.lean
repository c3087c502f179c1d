import LiquidityBook.Proofs.Allocation.Floors
import LiquidityBook.Proofs.Distribution.Movement
import LiquidityBook.Proofs.Distribution.RoundTrip

/-! The correction that makes the weights of a deposit sum to one. It moves as little as it can, at the end of the
spread, and no bin gets a distribution further from its weight than the tolerance and what was cut off allow. -/
namespace LiquidityBook.Allocation
open LiquidityBook.Distribution (one units normalize moved Corrected)

/-- Every entry is near its weight, cut off behind eighteen fractional digits. -/
def Follows (weights : List Decimal) (distribution : List Nat) : Prop :=
  List.Forall₂ (fun w d => Nat.dist ⌊w.toRat * 10 ^ 18⌋₊ d ≤ 10 ^ 12 + weights.length) weights distribution

namespace SideAccepted
variable {weights : List Decimal} {funded : Bool}

/-- What the tolerance leaves and less than one unit for each weight are missing from one. -/
private theorem one_le_sum_units (h : SideAccepted weights funded) (hne : (weights.map units).sum ≠ 0) :
    one ≤ (weights.map units).sum + (one / 10 ^ 6 + weights.length) := by
  obtain ⟨hlow, hhigh⟩ := Distribution.sum_units_bounds h.nonneg
  have hnear : |(weights.map Decimal.toRat).sum - 1| ≤ 1 / 10 ^ 6 := by
    rcases h.sum with hs | ⟨_, hz⟩
    · exact hs
    · rw [(sum_toRat_eq_zero_iff h.nonneg).2 hz, zero_mul] at hlow
      exact absurd (Nat.le_zero.1 (by exact_mod_cast hlow)) hne
  have hpos : (0 : ℚ) ≤ one := Nat.cast_nonneg _
  have hscaled : (1 - 1 / 10 ^ 6) * (one : ℚ) ≤ (weights.map Decimal.toRat).sum * one :=
    mul_le_mul_of_nonneg_right (by linarith [(abs_le.1 hnear).1]) hpos
  have hone : (1 - 1 / 10 ^ 6 : ℚ) * one = one - (one / 10 ^ 6 : Nat) := by norm_num [one]
  rw [hone] at hscaled
  have hle : (one : ℚ) ≤ ((weights.map units).sum + (one / 10 ^ 6 + weights.length) : Nat) := by
    rw [Nat.cast_add, Nat.cast_add]
    linarith
  exact_mod_cast hle

private theorem moved_le (h : SideAccepted weights funded) :
    moved (weights.map units) (normalized weights) ≤ 10 ^ 12 + weights.length := by
  have htol : one / 10 ^ 6 = 10 ^ 12 := by decide
  by_cases hz : (weights.map units).sum = 0
  · rw [normalized, Distribution.normalize_of_sum_eq_zero hz, Distribution.moved_self]
    exact Nat.zero_le _
  · have hhigh := h.sum_units_le
    have hlow := h.one_le_sum_units hz
    rw [htol] at hhigh hlow
    rw [normalized, Distribution.moved_normalize hz, Nat.dist]
    omega

theorem follows (h : SideAccepted weights funded) : Follows weights (normalized weights) := by
  have hdist : List.Forall₂ (fun w d => Nat.dist (units w) d ≤ moved (weights.map units) (normalized weights)) weights
      (normalized weights) :=
    List.forall₂_map_left_iff.1 (Distribution.forall₂_dist_le_moved (Distribution.length_normalize _))
  refine ((List.forall₂_and_left _ _).2 ⟨h.nonneg, hdist⟩).imp fun w d hd => ?_
  have hone : (one : ℚ) = 10 ^ 18 := by norm_num [one]
  rw [← hone, ← Distribution.units_eq_floor hd.1]
  exact hd.2.trans h.moved_le

end SideAccepted

/-- Made to sum to one, a list is moved no further than it has to be, and only at its end. In every plan, the
distribution of each bin follows its weight. -/
theorem correction_least :
    (∀ vs : List Nat, Corrected vs (normalize vs)) ∧
    ∀ (intent : LiquidityIntent) (activeId : BinId) (slippageBps : Nat) (plan : AllocationPlan),
      compile intent activeId slippageBps = .ok plan →
      plan.bins.length = intent.spread.length ∧
        Follows (intent.spread.map (·.weightX)) (plan.bins.map (·.distributionX.toNat)) ∧
        Follows (intent.spread.map (·.weightY)) (plan.bins.map (·.distributionY.toNat)) := by
  refine ⟨Distribution.corrected_normalize, fun intent activeId slippageBps plan h => ?_⟩
  have hc := compile_eq_ok_iff.1 h
  refine ⟨?_, hc.bins.distributionX ▸ hc.sideX.follows, hc.bins.distributionY ▸ hc.sideY.follows⟩
  simpa using congrArg List.length hc.bins.offsets

/-- What is too much is taken from the last two entries, and what is missing goes to the last one that has a share. The
weight `0.4999995` of the plan is raised by half of the tolerance. -/
theorem correction_least_tails :
    Distribution.CutTail (10 ^ 17) [5 * 10 ^ 17, 0, 55 * 10 ^ 16, 3 * 10 ^ 16, 2 * 10 ^ 16]
      [5 * 10 ^ 17, 0, 5 * 10 ^ 17, 0, 0] ∧
    Distribution.RaisedLast 7 [5 * 10 ^ 17, 5 * 10 ^ 17 - 7, 0] [5 * 10 ^ 17, 5 * 10 ^ 17, 0] ∧
    Follows (halves.spread.map (·.weightX)) [5 * 10 ^ 17, 5 * 10 ^ 17] := by
  obtain ⟨hlist, hplan⟩ := correction_least
  have hcut := (hlist [5 * 10 ^ 17, 0, 55 * 10 ^ 16, 3 * 10 ^ 16, 2 * 10 ^ 16]).cut (by decide)
  have hraised := (hlist [5 * 10 ^ 17, 5 * 10 ^ 17 - 7, 0]).raised (by decide) (by decide)
  exact ⟨hcut, hraised, (hplan halves .center 0 halvesPlan compile_halves).2.1⟩

end LiquidityBook.Allocation
