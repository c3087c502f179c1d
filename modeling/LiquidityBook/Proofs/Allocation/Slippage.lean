import LiquidityBook.Allocation
import Mathlib.Algebra.Order.Group.Nat

/-! Parts of amounts, and the floor that the slippage leaves. The split by the denominator gives the plain quotient of
every amount, the largest one included, and none of its steps leaves the width of the amount. -/
namespace LiquidityBook

namespace Uint
variable {bits : Nat} {numerator denominator : Nat}

/-- The part of an amount by the same split, where each product and the sum are checked against the width. -/
def checkedPortion (a : Uint bits) (numerator denominator : Nat) : Option (Uint bits) := do
  let high ← ofNat? bits (a.toNat / denominator * numerator)
  let low ← ofNat? bits (a.toNat % denominator * numerator)
  ofNat? bits (high.toNat + low.toNat / denominator)

theorem portion_products_lt (a : Uint bits) (h : numerator ≤ denominator) (hpos : 0 < denominator)
    (hsq : denominator * denominator ≤ 2 ^ bits) :
    a.toNat / denominator * numerator < 2 ^ bits ∧ a.toNat % denominator * numerator < 2 ^ bits := by
  constructor
  · have hle : a.toNat / denominator * numerator ≤ a.toNat :=
      (Nat.mul_le_mul_left _ h).trans (Nat.div_mul_le_self _ _)
    exact hle.trans_lt a.isLt
  · have hle : a.toNat % denominator * numerator ≤ a.toNat % denominator * denominator := Nat.mul_le_mul_left _ h
    have hlt : a.toNat % denominator * denominator < denominator * denominator :=
      Nat.mul_lt_mul_of_pos_right (Nat.mod_lt _ hpos) hpos
    exact (hle.trans_lt hlt).trans_le hsq

theorem portion_split_lt (a : Uint bits) (h : numerator ≤ denominator) :
    a.toNat / denominator * numerator + a.toNat % denominator * numerator / denominator < 2 ^ bits := by
  have hlt := (a.portion numerator denominator).isLt
  simpa only [portion, Nat.min_eq_left h] using hlt

private theorem checkedPortion_eq (a : Uint bits) (h : numerator ≤ denominator) (hpos : 0 < denominator)
    (hsq : denominator * denominator ≤ 2 ^ bits) :
    a.checkedPortion numerator denominator = some (a.portion numerator denominator) := by
  obtain ⟨hhigh, hlow⟩ := a.portion_products_lt h hpos hsq
  have hhigh? : ofNat? bits (a.toNat / denominator * numerator) = some ⟨_, hhigh⟩ := dif_pos hhigh
  have hlow? : ofNat? bits (a.toNat % denominator * numerator) = some ⟨_, hlow⟩ := dif_pos hlow
  have hsum? : ofNat? bits (a.toNat / denominator * numerator + a.toNat % denominator * numerator / denominator) =
      some ⟨_, a.portion_split_lt h⟩ := dif_pos (a.portion_split_lt h)
  simp only [checkedPortion, hhigh?, hlow?, Option.bind_eq_bind, Option.bind_some, hsum?, portion, Nat.min_eq_left h]

end Uint

namespace Allocation
open LiquidityBook.Distribution (one)

theorem toNat_share {amount : Uint256} {d : Nat} (h : d ≤ one) : (share amount d).toNat = amount.toNat * d / one :=
  Uint.toNat_portion amount h (by decide)

theorem toNat_slippageFloor (amount : Uint256) (slippageBps : Nat) :
    (slippageFloor amount slippageBps).toNat = amount.toNat * (10000 - slippageBps) / 10000 :=
  Uint.toNat_portion amount (Nat.sub_le ..) (by decide)

variable {amount less : Uint256} {slippageBps more : Nat}

theorem slippageFloor_le (amount : Uint256) (slippageBps : Nat) :
    (slippageFloor amount slippageBps).toNat ≤ amount.toNat := by
  rw [toNat_slippageFloor]
  apply Nat.div_le_of_le_mul
  rw [Nat.mul_comm 10000]
  exact Nat.mul_le_mul_left _ (Nat.sub_le ..)

private theorem slippageFloor_mono (h : less.toNat ≤ amount.toNat) :
    (slippageFloor less slippageBps).toNat ≤ (slippageFloor amount slippageBps).toNat := by
  rw [toNat_slippageFloor, toNat_slippageFloor]
  exact Nat.div_le_div_right (Nat.mul_le_mul_right _ h)

private theorem slippageFloor_antitone (h : slippageBps ≤ more) :
    (slippageFloor amount more).toNat ≤ (slippageFloor amount slippageBps).toNat := by
  rw [toNat_slippageFloor, toNat_slippageFloor]
  exact Nat.div_le_div_right (Nat.mul_le_mul_left _ (Nat.sub_le_sub_left h _))

theorem slippageFloor_zero (amount : Uint256) : slippageFloor amount 0 = amount := by
  apply Uint.ext
  rw [toNat_slippageFloor]
  exact Nat.mul_div_cancel _ (by decide)

/-- Two floors lose at most one unit against the floor of both amounts together. -/
theorem slippageFloor_add {a b sum : Uint256} (h : sum.toNat = a.toNat + b.toNat) (slippageBps : Nat) :
    (slippageFloor a slippageBps).toNat + (slippageFloor b slippageBps).toNat ≤ (slippageFloor sum slippageBps).toNat ∧
      (slippageFloor sum slippageBps).toNat ≤
        (slippageFloor a slippageBps).toNat + (slippageFloor b slippageBps).toNat + 1 := by
  rw [toNat_slippageFloor, toNat_slippageFloor, toNat_slippageFloor, h, Nat.add_mul]
  omega

/-- The floor is the plain quotient of every amount at every slippage, computed without leaving 256 bits: a slippage
beyond the whole counts as the whole. It lies below the amount, follows it upwards and the slippage downwards, and is
additive but for one unit. -/
theorem slippageFloor_exact (slippageBps : Nat) :
    (∀ amount, amount.checkedPortion (10000 - slippageBps) 10000 = some (slippageFloor amount slippageBps)) ∧
      (∀ amount, (slippageFloor amount slippageBps).toNat =
        amount.toNat * (10000 - min slippageBps 10000) / 10000) ∧
      (∀ amount, (slippageFloor amount slippageBps).toNat ≤ amount.toNat) ∧
      (∀ less amount, less.toNat ≤ amount.toNat →
        (slippageFloor less slippageBps).toNat ≤ (slippageFloor amount slippageBps).toNat) ∧
      (∀ more amount, slippageBps ≤ more →
        (slippageFloor amount more).toNat ≤ (slippageFloor amount slippageBps).toNat) ∧
      (∀ amount, slippageFloor amount 0 = amount) ∧
      ∀ a b sum, sum.toNat = a.toNat + b.toNat →
        (slippageFloor a slippageBps).toNat + (slippageFloor b slippageBps).toNat ≤
            (slippageFloor sum slippageBps).toNat ∧
          (slippageFloor sum slippageBps).toNat ≤
            (slippageFloor a slippageBps).toNat + (slippageFloor b slippageBps).toNat + 1 := by
  refine ⟨?_, ?_, ?_, ?_, ?_, slippageFloor_zero, ?_⟩
  · intro amount
    exact amount.checkedPortion_eq (Nat.sub_le ..) (by decide) (by decide)
  · intro amount
    have hmin : 10000 - min slippageBps 10000 = 10000 - slippageBps := by omega
    rw [toNat_slippageFloor, hmin]
  · exact fun amount => slippageFloor_le amount slippageBps
  · exact fun less amount h => slippageFloor_mono h
  · exact fun more amount h => slippageFloor_antitone h
  · exact fun a b sum h => slippageFloor_add h slippageBps

/-- The largest amount, whose product with ten thousand is far beyond 256 bits. -/
example : (slippageFloor ⟨2 ^ 256 - 1, by decide⟩ 1).toNat = (2 ^ 256 - 1) * 9999 / 10000 := by decide +kernel

end Allocation

end LiquidityBook
