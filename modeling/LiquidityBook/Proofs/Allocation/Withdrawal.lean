import LiquidityBook.Contract.Message
import LiquidityBook.Proofs.Allocation.Verdict

/-! Which withdrawals can be worked out, and what is sent for them. The message names every position of the withdrawal
once, in order and with its full amount, and the floors of what is expected back. -/
namespace LiquidityBook

namespace Uint

/-- The number of a text of digits, if it is of that many bits. -/
def read? (bits : Nat) (text : String) : Option (Uint bits) := (Digits.value? text.toList).bind (ofNat? bits)

private theorem read?_text {bits : Nat} (a : Uint bits) : read? bits a.text = some a := by
  rw [read?, value?_text]
  exact ofNat?_toNat a

end Uint

/-- The positions that a message names: each id with the amount at the same place. -/
def RemoveLiquidityParams.positions? (p : RemoveLiquidityParams) : Option (List BinPosition) := do
  let ids ← p.ids.mapM fun id => (BinId.ofNat id.toNat).toOption
  let amounts ← p.amounts.mapM (Uint.read? 256)
  if ids.length = amounts.length then some (List.zipWith BinPosition.mk ids amounts) else none

namespace Allocation
open Requirement (Checks Decides FirstUnmet)

/-- What is required of a withdrawal, in the order in which it is reported. -/
def removalRequirements (intent : RemovalIntent) (slippageBps : Nat) : List Requirement :=
  [⟨slippageBps ≤ 10000, (· = .invalidSlippage slippageBps)⟩,
    ⟨intent.positions ≠ [], (· = .spreadEmpty)⟩,
    ⟨∃ p ∈ intent.positions, p.amount.toNat ≠ 0, (· = .emptyIntent)⟩,
    distinctRequirement (.schemaViolation <| .binRepeated ·.value) (intent.positions.map (·.binId))]

variable {intent : RemovalIntent} {slippageBps : Nat} {plan : RemovalPlan} {deadline : UInt64}

theorem decides_compileRemoval (intent : RemovalIntent) (slippageBps : Nat) :
    Decides (compileRemoval intent slippageBps) (removalRequirements intent slippageBps) := by
  unfold compileRemoval removalRequirements
  refine Decides.bind (Requirement.checks_when Nat.not_lt.symm rfl) fun _ _ => ?_
  refine Decides.bind (Requirement.checks_when (not_congr List.isEmpty_iff.symm) rfl) fun _ _ => ?_
  refine Decides.bind (Requirement.checks_when ?_ rfl) fun _ _ => ?_
  · simp
  refine Decides.bind (checks_checkDistinct _ _) fun _ _ => ?_
  exact Decides.pure _

/-- The plan of a withdrawal lists the positions column by column. -/
theorem compileRemoval_eq_ok (h : compileRemoval intent slippageBps = .ok plan) :
    plan = ⟨intent.pair, intent.positions.map (·.binId), intent.positions.map (·.amount),
      slippageFloor intent.expectedX slippageBps, slippageFloor intent.expectedY slippageBps⟩ := by
  simp only [compileRemoval, Error.bind_eq_ok_iff] at h
  obtain ⟨_, _, _, _, _, _, _, _, hp⟩ := h
  cases hp
  rfl

theorem compileRemoval_eq_ok_iff : compileRemoval intent slippageBps = .ok plan ↔
    (∀ r ∈ removalRequirements intent slippageBps, r.met) ∧
      plan = ⟨intent.pair, intent.positions.map (·.binId), intent.positions.map (·.amount),
        slippageFloor intent.expectedX slippageBps, slippageFloor intent.expectedY slippageBps⟩ := by
  constructor
  · intro h
    exact ⟨(decides_compileRemoval intent slippageBps).ok plan h, compileRemoval_eq_ok h⟩
  · rintro ⟨hmet, rfl⟩
    obtain ⟨plan, h⟩ := (decides_compileRemoval intent slippageBps).ok_iff.2 hmet
    rw [h, compileRemoval_eq_ok h]

private theorem mapM_ofNat_ids (ids : List BinId) :
    (ids.map (UInt32.ofNat ·.value)).mapM (fun id => (BinId.ofNat id.toNat).toOption) = some ids := by
  have hread : (fun id : UInt32 => (BinId.ofNat id.toNat).toOption) ∘ (UInt32.ofNat ·.value) = fun id => pure id := by
    funext id
    simp only [Function.comp_apply, id.toNat_value, id.ofNat_value]
    rfl
  rw [List.mapM_map, hread, List.mapM_pure, List.map_id']
  rfl

private theorem mapM_read?_texts (amounts : List Uint256) :
    (amounts.map (·.text)).mapM (Uint.read? 256) = some amounts := by
  have hread : Uint.read? 256 ∘ (·.text) = fun a => pure a := funext Uint.read?_text
  rw [List.mapM_map, hread, List.mapM_pure, List.map_id']
  rfl

private theorem zipWith_columns (positions : List BinPosition) :
    List.zipWith BinPosition.mk (positions.map (·.binId)) (positions.map (·.amount)) = positions := by
  induction positions with
  | nil => rfl
  | cons p positions ih => rw [List.map_cons, List.map_cons, List.zipWith_cons_cons, ih]

private theorem ofRemoval_of_columns (hne : plan.ids ≠ []) (hlen : plan.ids.length = plan.amounts.length)
    (hd : deadline ≠ 0) :
    ∃ p, ExecuteMsg.ofRemoval plan deadline = .ok (.removeLiquidity p) ∧
      p.positions? = some (List.zipWith BinPosition.mk plan.ids plan.amounts) ∧
      p.amountXMin = plan.amountXMin.text ∧ p.amountYMin = plan.amountYMin.text := by
  refine ⟨_, ExecuteMsg.ofRemoval_eq_ok_iff.2 ⟨hne, hlen, hd, rfl⟩, ?_, rfl, rfl⟩
  simp only [RemoveLiquidityParams.positions?, mapM_ofNat_ids, mapM_read?_texts]
  exact if_pos hlen

/-- A withdrawal is worked out exactly where all that is required of it is met, and otherwise the first requirement
that is not met is reported. What is then sent before any deadline names the very positions of the withdrawal, and the
floors of the amounts expected back. -/
theorem compileRemoval_verdict (intent : RemovalIntent) (slippageBps : Nat) :
    ((∃ plan, compileRemoval intent slippageBps = .ok plan) ↔ ∀ r ∈ removalRequirements intent slippageBps, r.met) ∧
      (∀ e, compileRemoval intent slippageBps = .error e → FirstUnmet (removalRequirements intent slippageBps) e) ∧
      ∀ plan, compileRemoval intent slippageBps = .ok plan → ∀ deadline, deadline ≠ 0 →
        ∃ p, ExecuteMsg.ofRemoval plan deadline = .ok (.removeLiquidity p) ∧ p.positions? = some intent.positions ∧
          (∃ x, Uint.read? 256 p.amountXMin = some x ∧
            x.toNat = intent.expectedX.toNat * (10000 - slippageBps) / 10000) ∧
          ∃ y, Uint.read? 256 p.amountYMin = some y ∧
            y.toNat = intent.expectedY.toNat * (10000 - slippageBps) / 10000 := by
  have hdec := decides_compileRemoval intent slippageBps
  refine ⟨hdec.ok_iff, hdec.error, ?_⟩
  intro plan h deadline hd
  have hne : intent.positions ≠ [] := by
    have hmet := hdec.ok plan h
    simp only [removalRequirements, List.forall_mem_cons] at hmet
    exact hmet.2.1
  have hplan := compileRemoval_eq_ok h
  have hids : plan.ids = intent.positions.map (·.binId) := by rw [hplan]
  have hamounts : plan.amounts = intent.positions.map (·.amount) := by rw [hplan]
  have hsome : plan.ids ≠ [] := by simpa [hids] using hne
  have hlen : plan.ids.length = plan.amounts.length := by rw [hids, hamounts, List.length_map, List.length_map]
  obtain ⟨p, hsent, hpos, hx, hy⟩ := ofRemoval_of_columns hsome hlen hd
  refine ⟨p, hsent, ?_, ⟨plan.amountXMin, ?_, ?_⟩, ⟨plan.amountYMin, ?_, ?_⟩⟩
  · rw [hpos, hids, hamounts, zipWith_columns]
  · rw [hx, Uint.read?_text]
  · rw [hplan, toNat_slippageFloor]
  · rw [hy, Uint.read?_text]
  · rw [hplan, toNat_slippageFloor]

end Allocation

end LiquidityBook
