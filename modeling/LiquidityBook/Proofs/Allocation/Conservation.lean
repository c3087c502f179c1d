import LiquidityBook.Proofs.Allocation.Compiled

/-! Where the amount of each side goes: the distribution is whole, the deposits never exceed the amount, and
less than one unit for each bin is left. -/
namespace LiquidityBook.Allocation
open LiquidityBook.Distribution (one normalize)

/-- Every sum of the first few numbers is below `2 ^ bits`. -/
def SumsFit (bits : Nat) (vs : List Nat) : Prop := ∀ k, (vs.take k).sum < 2 ^ bits

private theorem sumsFit_of_sum_lt {bits : Nat} {vs : List Nat} (h : vs.sum < 2 ^ bits) : SumsFit bits vs := by
  intro k
  have hsplit : (vs.take k).sum + (vs.drop k).sum = vs.sum := by rw [← List.sum_append, List.take_append_drop]
  omega

/-- What one side of a plan does with its amount. -/
structure Conserved (weights : List Decimal) (amount : Uint256) (distribution deposits : List Nat) (total : Nat) :
    Prop where
  idle : (∀ w ∈ weights, w.isZero) → (∀ d ∈ distribution, d = 0) ∧ ∀ d ∈ deposits, d = 0
  whole : (∃ w ∈ weights, ¬ w.isZero) → distribution.sum = one
  funded : amount.toNat ≠ 0 → ∃ w ∈ weights, ¬ w.isZero
  floors : deposits = distribution.map (amount.toNat * · / one)
  total_eq : total = deposits.sum
  total_le : total ≤ amount.toNat
  remainder_le : (∃ d ∈ distribution, d ≠ 0) → amount.toNat - total ≤ distribution.countP (· ≠ 0) - 1

/-- Every number on the way to the deposits of one side fits its width. -/
structure Fits (weights : List Decimal) (amount : Uint256) (distribution deposits : List Nat) : Prop where
  raw : ∃ raw, weights.mapM Distribution.ofWeight = .ok raw ∧ distribution = normalize raw ∧ SumsFit 128 raw
  entries : ∀ d ∈ distribution, d < 2 ^ 128
  products : ∀ d ∈ distribution, amount.toNat / one * d < 2 ^ 256 ∧ amount.toNat % one * d < 2 ^ 256
  splits : ∀ d ∈ distribution, amount.toNat / one * d + amount.toNat % one * d / one < 2 ^ 256
  total : SumsFit 256 deposits

variable {amount : Uint256} {d : Nat} {distribution : List Nat}

private theorem share_products_lt (h : d ≤ one) : amount.toNat / one * d < 2 ^ 256 ∧ amount.toNat % one * d < 2 ^ 256 :=
  amount.portion_products_lt h (by decide) (by decide)

private theorem share_split_lt (h : d ≤ one) : amount.toNat / one * d + amount.toNat % one * d / one < 2 ^ 256 :=
  amount.portion_split_lt h

theorem sum_div_add_sum_mod (a : Nat) (ds : List Nat) :
    one * (ds.map (a * · / one)).sum + (ds.map (a * · % one)).sum = a * ds.sum := by
  induction ds with
  | nil => simp
  | cons d ds ih =>
    have hd := Nat.div_add_mod (a * d) one
    simp only [List.map_cons, List.sum_cons, Nat.mul_add, ← ih]
    omega

private theorem sum_mod_le (a : Nat) (ds : List Nat) :
    (ds.map (a * · % one)).sum ≤ ds.countP (· ≠ 0) * (one - 1) := by
  induction ds with
  | nil => simp
  | cons d ds ih =>
    have hlt : a * d % one < one := Nat.mod_lt _ (by decide)
    rw [List.map_cons, List.sum_cons, List.countP_cons]
    by_cases hd : d = 0
    · simpa [hd] using ih
    · rw [if_pos (by simpa using hd), Nat.add_mul, Nat.one_mul]
      omega

private theorem sum_deposits_le (h : distribution.sum = one) :
    (distribution.map (amount.toNat * · / one)).sum ≤ amount.toNat := by
  have hsum := sum_div_add_sum_mod amount.toNat distribution
  rw [h] at hsum
  refine Nat.le_of_mul_le_mul_left ?_ (by decide : 0 < one)
  rw [Nat.mul_comm one amount.toNat, ← hsum]
  exact Nat.le_add_right _ _

private theorem remainder_le (h : distribution.sum = one) :
    amount.toNat - (distribution.map (amount.toNat * · / one)).sum ≤ distribution.countP (· ≠ 0) - 1 := by
  have hsum := sum_div_add_sum_mod amount.toNat distribution
  have hmod := sum_mod_le amount.toNat distribution
  have hpos : 0 < distribution.countP (· ≠ 0) := by
    apply List.countP_pos_iff.2
    by_contra hz
    push Not at hz
    have h0 : distribution.sum = 0 := by
      apply List.sum_eq_zero
      intro d hd
      simpa using hz d hd
    exact absurd (h0.symm.trans h) (by decide)
  rw [h] at hsum
  simp only [one] at hsum hmod ⊢
  omega

variable {weights : List Decimal}

namespace SideAccepted

theorem conserved (h : SideAccepted weights (amount.toNat ≠ 0)) (hlen : weights.length ≤ 2 ^ 32)
    {deposits : List Nat} (hd : deposits = (normalized weights).map (amount.toNat * · / one)) {total : Nat}
    (ht : total = deposits.sum) : Conserved weights amount (normalized weights) deposits total := by
  have hfunded : amount.toNat ≠ 0 → ∃ w ∈ weights, ¬ w.isZero := by
    intro ha
    rw [decide_eq_true ha] at h
    exact h.exists_not_isZero
  rcases h.normalized_cases hlen with ⟨hz, hd0⟩ | ⟨hw, hone⟩
  · have hdep : ∀ d ∈ deposits, d = 0 := by
      rw [hd]
      intro d hmem
      obtain ⟨e, he, rfl⟩ := List.mem_map.1 hmem
      simp [hd0 e he]
    have hsum : deposits.sum = 0 := List.sum_eq_zero hdep
    have hno : ¬ ∃ w ∈ weights, ¬ w.isZero := by
      rintro ⟨w, hw, hne⟩
      exact hne (hz w hw)
    refine ⟨fun _ => ⟨hd0, hdep⟩, fun he => absurd he hno, hfunded, hd, ht, ?_, ?_⟩
    · rw [ht, hsum]
      exact Nat.zero_le _
    · rintro ⟨d, hmem, hne⟩
      exact absurd (hd0 d hmem) hne
  · refine ⟨fun hz => ?_, fun _ => hone, hfunded, hd, ht, ?_, fun _ => ?_⟩
    · obtain ⟨w, hmem, hne⟩ := hw
      exact absurd (hz w hmem) hne
    · rw [ht, hd]
      exact sum_deposits_le hone
    · rw [ht, hd]
      exact remainder_le hone

private theorem fits {funded : Bool} (h : SideAccepted weights funded) {deposits : List Nat}
    (hdep : deposits.sum ≤ amount.toNat) : Fits weights amount (normalized weights) deposits where
  raw := by
    have hle := h.sum_units_le
    exact ⟨_, Distribution.mapM_ofWeight h.inUnit, rfl, sumsFit_of_sum_lt (hle.trans_lt (by decide))⟩
  entries := fun _ hd => (le_one_of_mem_normalized hd).trans_lt (by decide)
  products := fun _ hd => share_products_lt (le_one_of_mem_normalized hd)
  splits := fun _ hd => share_split_lt (le_one_of_mem_normalized hd)
  total := sumsFit_of_sum_lt (hdep.trans_lt amount.isLt)

end SideAccepted

private theorem foldl_eq_sum {bins : List BinAllocation} (deposit : BinAllocation → Uint256) :
    bins.foldl (fun total b => total + (deposit b).toNat) 0 = (bins.map fun b => (deposit b).toNat).sum := by
  rw [List.sum_eq_foldl_nat, List.foldl_map]

private theorem deposits_eq {bins : List BinAllocation} {dist : BinAllocation → Nat}
    {deposit : BinAllocation → Uint256} (hb : ∀ b ∈ bins, deposit b = share amount (dist b))
    (hle : ∀ d ∈ bins.map dist, d ≤ one) :
    bins.map (fun b => (deposit b).toNat) = (bins.map dist).map (amount.toNat * · / one) := by
  rw [List.map_map]
  apply List.map_congr_left
  intro b hmem
  rw [hb b hmem, toNat_share (hle _ (List.mem_map_of_mem hmem))]
  rfl

variable {intent : LiquidityIntent} {activeId : BinId} {slippageBps : Nat} {plan : AllocationPlan}

theorem Compiled.conserved (h : Compiled intent activeId slippageBps plan) :
    Conserved (intent.spread.map (·.weightX)) plan.amountX (plan.bins.map (·.distributionX.toNat))
        (plan.bins.map (·.depositX.toNat)) plan.totalX ∧
      Conserved (intent.spread.map (·.weightY)) plan.amountY (plan.bins.map (·.distributionY.toNat))
        (plan.bins.map (·.depositY.toNat)) plan.totalY := by
  have hlen := h.length_le
  have hx := h.bins.distributionX
  have hy := h.bins.distributionY
  have hdx := deposits_eq (fun b hb => (h.bins.placed b hb).depositX)
    fun d hd => le_one_of_mem_normalized (hx ▸ hd)
  have hdy := deposits_eq (fun b hb => (h.bins.placed b hb).depositY)
    fun d hd => le_one_of_mem_normalized (hy ▸ hd)
  rw [hx] at hdx ⊢
  rw [hy] at hdy ⊢
  exact ⟨h.sideX.conserved (by simpa using hlen) hdx (foldl_eq_sum (·.depositX)),
    h.sideY.conserved (by simpa using hlen) hdy (foldl_eq_sum (·.depositY))⟩

/-- On both sides of every plan the amount is conserved, and nothing overflows on the way. -/
theorem compile_conserves {intent : LiquidityIntent} {activeId : BinId} {slippageBps : Nat} {plan : AllocationPlan}
    (h : compile intent activeId slippageBps = .ok plan) :
    (Conserved (intent.spread.map (·.weightX)) plan.amountX (plan.bins.map (·.distributionX.toNat))
        (plan.bins.map (·.depositX.toNat)) plan.totalX ∧
      Fits (intent.spread.map (·.weightX)) plan.amountX (plan.bins.map (·.distributionX.toNat))
        (plan.bins.map (·.depositX.toNat))) ∧
    (Conserved (intent.spread.map (·.weightY)) plan.amountY (plan.bins.map (·.distributionY.toNat))
        (plan.bins.map (·.depositY.toNat)) plan.totalY ∧
      Fits (intent.spread.map (·.weightY)) plan.amountY (plan.bins.map (·.distributionY.toNat))
        (plan.bins.map (·.depositY.toNat))) := by
  have hc := compile_eq_ok_iff.1 h
  obtain ⟨cx, cy⟩ := hc.conserved
  have fx := hc.sideX.fits (cx.total_eq ▸ cx.total_le)
  have fy := hc.sideY.fits (cy.total_eq ▸ cy.total_le)
  rw [← hc.bins.distributionX] at fx
  rw [← hc.bins.distributionY] at fy
  exact ⟨⟨cx, fx⟩, ⟨cy, fy⟩⟩

/-- Token X only, in thirds of 28 digits: they add up to less than one, and the amount has no third. -/
def thirds : LiquidityIntent where
  pair := ⟨⟨"x", "hash", "TOKENX", 6⟩, ⟨"y", "hash", "TOKENY", 6⟩, 100⟩
  amountX := "1.000001"
  amountY := "0"
  spread :=
    let third : Decimal := ⟨false, 3333333333333333333333333333, 28, by decide, by decide⟩
    [⟨0, third, .zero⟩, ⟨1, third, .zero⟩, ⟨5, third, .zero⟩]
  idSlippage := 10

/-- The last bin gets what is missing from one, and two units of the amount are left. -/
def thirdsPlan : AllocationPlan where
  pair := thirds.pair
  bins :=
    let bin (offset : Int32) (id : BinId) (d : Nat) (deposit : Nat) : BinAllocation :=
      ⟨offset, id, .clamp 128 d, .zero, .clamp 256 deposit, .zero⟩
    [bin 0 ⟨8388608, by decide⟩ 333333333333333333 333333, bin 1 ⟨8388609, by decide⟩ 333333333333333333 333333,
      bin 5 ⟨8388613, by decide⟩ 333333333333333334 333333]
  amountX := .clamp 256 1000001
  amountY := .zero
  amountXMin := .clamp 256 995000
  amountYMin := .zero
  desiredActiveId := .center
  idSlippage := 10

theorem compile_conserves_thirds :
    compile thirds .center 50 = .ok thirdsPlan ∧
      Conserved (thirds.spread.map (·.weightX)) thirdsPlan.amountX (thirdsPlan.bins.map (·.distributionX.toNat))
        (thirdsPlan.bins.map (·.depositX.toNat)) thirdsPlan.totalX ∧
      thirdsPlan.amountX.toNat - thirdsPlan.totalX = 2 := by
  have h : compile thirds .center 50 = .ok thirdsPlan := by decide +kernel
  exact ⟨h, (compile_conserves h).1.1, by decide⟩

end LiquidityBook.Allocation
