import LiquidityBook.Proofs.Allocation.Conservation

/-! The deposits of a plan against its floors. The floor is worked out of the whole amount and the deposits are rounded
down bin by bin, so what the bins lose may be more than what the slippage allows. -/
namespace LiquidityBook.Allocation
open LiquidityBook.Distribution (one)

/-- What the bins lose of an amount, in parts of `one`. -/
def lost (amount : Uint256) (distribution : List Nat) : Nat := (distribution.map (amount.toNat * · % one)).sum

/-- How the deposits of one side stand to its floor. -/
structure Floored (amount floor : Uint256) (distribution : List Nat) (total slippageBps : Nat) : Prop where
  floor_eq : floor.toNat = amount.toNat * (10000 - slippageBps) / 10000
  met_iff : floor.toNat ≤ total ↔ lost amount distribution ≤ one * (amount.toNat - floor.toNat)
  /-- Where no slippage is allowed, no bin may lose anything. -/
  exact_iff : slippageBps = 0 → (floor.toNat ≤ total ↔ ∀ d ∈ distribution, one ∣ amount.toNat * d)
  shortfall_le : floor.toNat - total ≤ distribution.countP (· ≠ 0) - 1
  met_of_slack : distribution.countP (· ≠ 0) - 1 ≤ amount.toNat - floor.toNat → floor.toNat ≤ total

variable {weights : List Decimal} {amount : Uint256} {distribution deposits : List Nat} {total : Nat}

namespace Conserved

private theorem total_add_lost (h : Conserved weights amount distribution deposits total) :
    one * total + lost amount distribution = one * amount.toNat := by
  have hsplit : one * total + lost amount distribution = amount.toNat * distribution.sum := by
    rw [h.total_eq, h.floors]
    exact sum_div_add_sum_mod amount.toNat distribution
  rw [hsplit]
  by_cases ha : amount.toNat = 0
  · rw [ha, Nat.zero_mul, Nat.mul_zero]
  · rw [h.whole (h.funded ha), Nat.mul_comm]

private theorem le_total_add_count (h : Conserved weights amount distribution deposits total) :
    amount.toNat ≤ total + (distribution.countP (· ≠ 0) - 1) := by
  by_cases ha : amount.toNat = 0
  · omega
  · have hsum : distribution.sum ≠ 0 := by
      rw [h.whole (h.funded ha)]
      decide
    have hle := h.remainder_le (List.exists_mem_ne_zero_of_sum_ne_zero hsum)
    omega

private theorem floored (h : Conserved weights amount distribution deposits total) {slippageBps : Nat} {floor : Uint256}
    (hf : floor = slippageFloor amount slippageBps) : Floored amount floor distribution total slippageBps := by
  have heq : floor.toNat = amount.toNat * (10000 - slippageBps) / 10000 := hf ▸ toNat_slippageFloor amount slippageBps
  have hle : floor.toNat ≤ amount.toNat := hf ▸ slippageFloor_le amount slippageBps
  have hlost := h.total_add_lost
  have hcount := h.le_total_add_count
  have hmet : floor.toNat ≤ total ↔ lost amount distribution ≤ one * (amount.toNat - floor.toNat) := by
    simp only [one] at hlost ⊢
    omega
  refine ⟨heq, hmet, ?_, by omega, fun hs => by omega⟩
  rintro rfl
  have hall : floor.toNat = amount.toNat := by rw [hf, slippageFloor_zero]
  rw [hmet, hall, Nat.sub_self, Nat.mul_zero, Nat.le_zero, lost, List.sum_eq_zero_iff_forall_eq_nat,
    List.forall_mem_map]
  exact forall₂_congr fun _ _ => Nat.dvd_iff_mod_eq_zero.symm

end Conserved

/-- On both sides of every plan the floor is met exactly where the bins lose no more than the slippage allows, and it
is missed by less than one unit for each bin. -/
theorem compile_floors {intent : LiquidityIntent} {activeId : BinId} {slippageBps : Nat} {plan : AllocationPlan}
    (h : compile intent activeId slippageBps = .ok plan) :
    Floored plan.amountX plan.amountXMin (plan.bins.map (·.distributionX.toNat)) plan.totalX slippageBps ∧
      Floored plan.amountY plan.amountYMin (plan.bins.map (·.distributionY.toNat)) plan.totalY slippageBps := by
  have hc := compile_eq_ok_iff.1 h
  obtain ⟨cx, cy⟩ := hc.conserved
  exact ⟨cx.floored hc.amountXMin, cy.floored hc.amountYMin⟩

/-- Token X only, an odd number of units in two bins, whose weights are topped up to a half each. -/
def halves : LiquidityIntent where
  pair := ⟨⟨"x", "hash", "TOKENX", 6⟩, ⟨"y", "hash", "TOKENY", 6⟩, 100⟩
  amountX := "100.000001"
  amountY := "0"
  spread := [⟨0, .ofCoefficient 5 1 (by decide) (by decide), .zero⟩,
    ⟨1, .ofCoefficient 4999995 7 (by decide) (by decide), .zero⟩]
  idSlippage := 10

/-- One unit is lost, and none may be. -/
def halvesPlan : AllocationPlan where
  pair := halves.pair
  bins :=
    let bin (offset : Int32) (id : BinId) : BinAllocation :=
      ⟨offset, id, .clamp 128 500000000000000000, .zero, .clamp 256 50000000, .zero⟩
    [bin 0 .center, bin 1 ⟨BinId.centerValue + 1, by decide⟩]
  amountX := .clamp 256 100000001
  amountY := .zero
  amountXMin := .clamp 256 100000001
  amountYMin := .zero
  desiredActiveId := .center
  idSlippage := 10

theorem compile_halves : compile halves .center 0 = .ok halvesPlan := by decide +kernel

theorem compile_floors_halves :
    compile halves .center 0 = .ok halvesPlan ∧
      Floored halvesPlan.amountX halvesPlan.amountXMin (halvesPlan.bins.map (·.distributionX.toNat))
        halvesPlan.totalX 0 ∧
      halvesPlan.amountXMin.toNat - halvesPlan.totalX = 1 :=
  ⟨compile_halves, (compile_floors compile_halves).1, by decide⟩

/-- A plan may fall short of its own floor. -/
theorem exists_plan_below_floor :
    ¬ ∀ intent activeId slippageBps plan, compile intent activeId slippageBps = .ok plan →
      plan.amountXMin.toNat ≤ plan.totalX ∧ plan.amountYMin.toNat ≤ plan.totalY := by
  intro hall
  exact absurd (hall halves .center 0 halvesPlan compile_halves).1 (by decide)

end LiquidityBook.Allocation
