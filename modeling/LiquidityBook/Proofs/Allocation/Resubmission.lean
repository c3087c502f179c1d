import LiquidityBook.Contract.Message
import LiquidityBook.Proofs.Allocation.Conservation
import LiquidityBook.Proofs.Amount.RoundTrip
import Mathlib.Algebra.BigOperators.Ring.Finset
import Mathlib.Algebra.BigOperators.Ring.List

/-! A deposit message read back as an intent: it is worked out into the plan that it was made from, so sending
it again sends the same message. -/
namespace LiquidityBook

/-- The intent that a message states: its amounts in human units, and a weight for each distribution. -/
def LiquidityIntent.ofMessage (pair : Pair) (p : LiquidityParameters) : Except Error LiquidityIntent := do
  let amountX ← Amount.toHuman p.amountX pair.tokenX.decimals.toNat none
  let amountY ← Amount.toHuman p.amountY pair.tokenY.decimals.toNat none
  let weightsX ← p.distributionX.mapM Distribution.read
  let weightsY ← p.distributionY.mapM Distribution.read
  return {
    pair
    amountX
    amountY
    spread := (p.deltaIds.zip (weightsX.zip weightsY)).map fun (offset, x, y) => ⟨offset, x, y⟩
    idSlippage := p.idSlippage }

namespace Allocation
open Decimal (toRat)
open LiquidityBook.Distribution (one)

def replan (pair : Pair) (p : LiquidityParameters) (slippageBps : Nat) : Except Error AllocationPlan := do
  let intent ← LiquidityIntent.ofMessage pair p
  let activeId ← BinId.ofNat p.activeIdDesired.toNat
  compile intent activeId slippageBps

private theorem SideAccepted.exists_reread {weights : List Decimal} {funded : Bool} (h : SideAccepted weights funded)
    (hlen : weights.length ≤ 2 ^ 32) :
    ∃ ws, ((normalized weights).map Nat.repr).mapM Distribution.read = .ok ws ∧ SideAccepted ws funded ∧
      normalized ws = normalized weights ∧ ws.length = weights.length := by
  have hle : ∀ d ∈ normalized weights, d ≤ one := fun _ => le_one_of_mem_normalized
  obtain ⟨ws, hws, hr, hu, hn⟩ := Distribution.mapM_read_repr hle
  have hnorm : normalized ws = normalized weights := by
    rw [normalized, hn]
    exact Distribution.normalize_normalize _
  have hsum : (ws.map toRat).sum = ((normalized weights).sum : Nat) / one := by
    rw [hr]
    simp only [div_eq_mul_inv, List.sum_map_mul_right, Nat.cast_list_sum]
  refine ⟨ws, hws, ⟨hu, ?_⟩, hnorm, ?_⟩
  · rcases h.normalized_cases hlen with ⟨hz, hd⟩ | ⟨_, hone⟩
    · refine .inr ⟨?_, ?_⟩
      · cases funded with
        | false => rfl
        | true =>
          obtain ⟨w, hw, hne⟩ := h.exists_not_isZero
          exact absurd (hz w hw) hne
      · refine (sum_toRat_eq_zero_iff fun w hw => (Decimal.inUnit_iff.1 (hu w hw)).1).1 ?_
        rw [hsum, List.sum_eq_zero hd, Nat.cast_zero, zero_div]
    · refine .inl ?_
      have hne : (one : ℚ) ≠ 0 := by norm_num [one]
      rw [hsum, hone, div_self hne]
      norm_num
  · rw [← length_normalized, hnorm, length_normalized]

private theorem columns {offsets : List Int32} {xs ys : List Decimal} (hx : xs.length = offsets.length)
    (hy : ys.length = offsets.length) {spread : List BinWeight}
    (hs : spread = (offsets.zip (xs.zip ys)).map fun (offset, x, y) => ⟨offset, x, y⟩) :
    spread.map (·.offset) = offsets ∧ spread.map (·.weightX) = xs ∧ spread.map (·.weightY) = ys := by
  subst hs
  induction offsets generalizing xs ys with
  | nil =>
    rw [List.length_nil, List.length_eq_zero_iff] at hx hy
    subst hx hy
    exact ⟨rfl, rfl, rfl⟩
  | cons o offsets ih =>
    obtain ⟨x, xs, rfl⟩ := List.exists_cons_of_length_eq_add_one hx
    obtain ⟨y, ys, rfl⟩ := List.exists_cons_of_length_eq_add_one hy
    obtain ⟨ho, hxs, hys⟩ := ih (by simpa using hx) (by simpa using hy)
    exact ⟨congrArg (o :: ·) ho, congrArg (x :: ·) hxs, congrArg (y :: ·) hys⟩

variable {intent : LiquidityIntent} {activeId : BinId} {slippageBps : Nat} {plan : AllocationPlan}

namespace Compiled

private theorem distributionX_texts (h : Compiled intent activeId slippageBps plan) :
    plan.bins.map (·.distributionX.text) = (normalized (intent.spread.map (·.weightX))).map Nat.repr := by
  rw [← h.bins.distributionX, List.map_map]
  rfl

private theorem distributionY_texts (h : Compiled intent activeId slippageBps plan) :
    plan.bins.map (·.distributionY.text) = (normalized (intent.spread.map (·.weightY))).map Nat.repr := by
  rw [← h.bins.distributionY, List.map_map]
  rfl

/-- The message of a plan states an intent that has the same plan. -/
theorem ofMessage (h : Compiled intent activeId slippageBps plan) (deadline : UInt64) :
    ∃ stated, LiquidityIntent.ofMessage intent.pair (.ofPlan plan deadline) = .ok stated ∧
      Compiled stated activeId slippageBps plan := by
  obtain ⟨textX, htx, hmx⟩ := Amount.toMachine_format plan.amountX (Amount.unit_lt_of_toMachine h.amountX)
  obtain ⟨textY, hty, hmy⟩ := Amount.toMachine_format plan.amountY (Amount.unit_lt_of_toMachine h.amountY)
  obtain ⟨xs, hxs, hsx, hnx, hlenX⟩ := h.sideX.exists_reread (by simpa using h.length_le)
  obtain ⟨ys, hys, hsy, hny, hlenY⟩ := h.sideY.exists_reread (by simpa using h.length_le)
  generalize hs : ((intent.spread.map (·.offset)).zip (xs.zip ys)).map
    (fun (offset, x, y) => (⟨offset, x, y⟩ : BinWeight)) = spread
  obtain ⟨ho, hx, hy⟩ := columns (by simpa using hlenX) (by simpa using hlenY) hs.symm
  refine ⟨⟨intent.pair, textX, textY, spread, intent.idSlippage⟩, ?_, ?_⟩
  · have hids : plan.deltaIds = intent.spread.map (·.offset) := h.bins.offsets
    simp only [LiquidityIntent.ofMessage, LiquidityParameters.ofPlan, Amount.toHuman_text, h.distributionX_texts,
      h.distributionY_texts, htx, hty, hxs, hys, hids, h.idSlippage, ← hs]
    rfl
  · have hbins : Allocated activeId plan.amountX plan.amountY (spread.map (·.offset))
        (normalized (spread.map (·.weightX))) (normalized (spread.map (·.weightY))) plan.bins := by
      rw [ho, hx, hy, hnx, hny]
      exact h.bins
    have hne : spread ≠ [] := by
      intro hnil
      rw [hnil] at ho
      exact h.spread (List.map_eq_nil_iff.1 ho.symm)
    exact {
      slippage := h.slippage
      spread := hne
      amountX := hmx
      amountY := hmy
      funded := h.funded
      distinct := ho ▸ h.distinct
      sideX := hx ▸ hsx
      sideY := hy ▸ hsy
      bins := hbins
      amountXMin := h.amountXMin
      amountYMin := h.amountYMin
      pair := h.pair
      desiredActiveId := h.desiredActiveId
      idSlippage := h.idSlippage }

end Compiled

private theorem ofNat_activeId (activeId : BinId) : BinId.ofNat (UInt32.ofNat activeId.value).toNat = .ok activeId := by
  rw [activeId.toNat_value, activeId.ofNat_value]

/-- A plan is sent with an offset and both shares for each bin, in the order of the spread. The message read
back gives the same plan again, and so the same message. -/
theorem resubmission {deadline : UInt64} (h : compile intent activeId slippageBps = .ok plan) (hd : deadline ≠ 0) :
    ∃ p, ExecuteMsg.ofAllocation plan deadline = .ok (.addLiquidity p) ∧
      p.deltaIds = intent.spread.map (·.offset) ∧
      (p.distributionX.length = intent.spread.length ∧
        ∃ dist, distribution (intent.spread.map (·.weightX)) = .ok dist ∧ p.distributionX = dist.map Nat.repr) ∧
      (p.distributionY.length = intent.spread.length ∧
        ∃ dist, distribution (intent.spread.map (·.weightY)) = .ok dist ∧ p.distributionY = dist.map Nat.repr) ∧
      replan intent.pair p slippageBps = .ok plan ∧
      (replan intent.pair p slippageBps >>= (ExecuteMsg.ofAllocation · p.deadline)) = .ok (.addLiquidity p) := by
  have hc := compile_eq_ok_iff.1 h
  have hlen : plan.bins.length = intent.spread.length := by
    have := congrArg List.length hc.bins.offsets
    simpa using this
  have hne : plan.bins ≠ [] := by
    rw [ne_eq, ← List.length_eq_zero_iff, hlen, List.length_eq_zero_iff]
    exact hc.spread
  have hsent : ExecuteMsg.ofAllocation plan deadline = .ok (.addLiquidity (.ofPlan plan deadline)) :=
    ExecuteMsg.ofAllocation_eq_ok_iff.2 ⟨hne, hd, rfl⟩
  have hre : replan intent.pair (.ofPlan plan deadline) slippageBps = .ok plan := by
    obtain ⟨stated, hstated, hsc⟩ := hc.ofMessage deadline
    refine Error.bind_eq_ok_iff.2 ⟨stated, hstated, Error.bind_eq_ok_iff.2 ⟨activeId, ?_, compile_eq_ok_iff.2 hsc⟩⟩
    rw [← hc.desiredActiveId]
    exact ofNat_activeId plan.desiredActiveId
  refine ⟨.ofPlan plan deadline, hsent, hc.bins.offsets, ⟨?_, ?_⟩, ⟨?_, ?_⟩, hre, ?_⟩
  · rw [← hlen]
    exact List.length_map ..
  · exact ⟨_, hc.sideX.distribution_eq, hc.distributionX_texts⟩
  · rw [← hlen]
    exact List.length_map ..
  · exact ⟨_, hc.sideY.distribution_eq, hc.distributionY_texts⟩
  · rw [hre]
    exact hsent

theorem resubmission_thirds :
    compile thirds .center 50 = .ok thirdsPlan ∧
      ∃ p, ExecuteMsg.ofAllocation thirdsPlan 1 = .ok (.addLiquidity p) ∧
        p.distributionX = ["333333333333333333", "333333333333333333", "333333333333333334"] ∧
        replan thirds.pair p 50 = .ok thirdsPlan := by
  have h : compile thirds .center 50 = .ok thirdsPlan := by decide +kernel
  obtain ⟨p, hsent, _, _, _, hre, _⟩ := resubmission h (by decide : (1 : UInt64) ≠ 0)
  refine ⟨h, p, hsent, ?_, hre⟩
  obtain ⟨_, _, hp⟩ := ExecuteMsg.ofAllocation_eq_ok_iff.1 hsent
  cases hp
  decide +kernel

end Allocation

end LiquidityBook
