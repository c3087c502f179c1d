import LiquidityBook.Proofs.Allocation.Compiled
import LiquidityBook.Proofs.Amount.Grammar
import LiquidityBook.Proofs.Requirement

/-! Which deposits can be worked out. The requirements of a deposit are stated without the procedure: on the exact
rationals of its weights and on the numbers that its amounts denote. The procedure accepts exactly the deposits that
meet them all, and reports the first that is not met. -/
namespace LiquidityBook.Allocation
open Decimal (toRat)
open Amount (Machine)
open Requirement (Checks Decides FirstUnmet)

def InUnit (w : Decimal) : Prop := 0 ≤ w.toRat ∧ w.toRat ≤ 1

/-- The weights of a side are in the unit interval, and their exact sum is within the tolerance of one. Where the
side's amount is zero, all of them may be zero as well. -/
def SideInOrder (weights : List Decimal) (amount : String) (decimals : Nat) : Prop :=
  (∀ w ∈ weights, InUnit w) ∧
    (|(weights.map toRat).sum - 1| ≤ 1 / 10 ^ 6 ∨ (Machine amount decimals 0 ∧ ∀ w ∈ weights, w.toRat = 0))

/-- The bin at this offset from the active one has an id of 24 bits. -/
def InRange (activeId : BinId) (offset : Int32) : Prop :=
  0 ≤ activeId.value + offset.toInt ∧ activeId.value + offset.toInt < 2 ^ 24

/-- The amount is a number, and what it amounts to in machine units is of 256 bits. -/
def amountRequirement (amount : String) (decimals : Nat) : Requirement where
  met := ∃ n, Machine amount decimals n
  reports e := ∃ fault, e = .invalidAmount amount fault

/-- No two elements are equal; the first that repeats an earlier one is reported. -/
def distinctRequirement {α : Type} (repeated : α → Error) (as : List α) : Requirement where
  met := as.Nodup
  reports e := ∃ before a after, as = before ++ a :: after ∧ before.Nodup ∧ a ∈ before ∧ e = repeated a

/-- The weights of a side are in order; what is reported is the first outside the unit interval or, where there is
none, their sum. -/
def sideRequirement (side : Char) (weights : List Decimal) (amount : String) (decimals : Nat) : Requirement where
  met := SideInOrder weights amount decimals
  reports e :=
    (∃ before w after, weights = before ++ w :: after ∧ (∀ b ∈ before, InUnit b) ∧ ¬ InUnit w ∧
        e = .weightMismatch side (.outsideUnit w)) ∨
      ((∀ w ∈ weights, InUnit w) ∧ e = .weightMismatch side (.wrongSum (Decimal.sum weights)))

/-- All bins are in range; the first that is not is reported by the id it would have. -/
def rangeRequirement (activeId : BinId) (offsets : List Int32) : Requirement where
  met := ∀ o ∈ offsets, InRange activeId o
  reports e := ∃ before o after, offsets = before ++ o :: after ∧ (∀ b ∈ before, InRange activeId b) ∧
    ¬ InRange activeId o ∧ e = .binIdOutOfRange (activeId.value + o.toInt)

/-- What is required of a deposit, in the order in which it is reported. -/
def requirements (intent : LiquidityIntent) (activeId : BinId) (slippageBps : Nat) : List Requirement :=
  let decimalsX := intent.pair.tokenX.decimals.toNat
  let decimalsY := intent.pair.tokenY.decimals.toNat
  let offsets := intent.spread.map (·.offset)
  [⟨slippageBps ≤ 10000, (· = .invalidSlippage slippageBps)⟩,
    ⟨intent.spread ≠ [], (· = .spreadEmpty)⟩,
    amountRequirement intent.amountX decimalsX,
    amountRequirement intent.amountY decimalsY,
    ⟨¬ (Machine intent.amountX decimalsX 0 ∧ Machine intent.amountY decimalsY 0), (· = .emptyIntent)⟩,
    distinctRequirement (.duplicateBinOffset ·.toInt) offsets,
    sideRequirement 'x' (intent.spread.map (·.weightX)) intent.amountX decimalsX,
    sideRequirement 'y' (intent.spread.map (·.weightY)) intent.amountY decimalsY,
    rangeRequirement activeId offsets]

private theorem checks_toMachine (amount : String) (decimals : Nat) :
    Checks (Amount.toMachine amount decimals) (amountRequirement amount decimals) where
  ok m h := ⟨m.toNat, Amount.toMachine_eq_ok_iff.1 h⟩
  error e h := by
    refine ⟨fun hn => ?_, Amount.invalidAmount_of_toMachine h⟩
    obtain ⟨m, hm⟩ := Amount.exists_toMachine_iff.2 hn
    cases h.symm.trans hm

private theorem firstRepeat?_eq_some {α : Type} [DecidableEq α] {seen as : List α} {a : α}
    (h : firstRepeat? seen as = some a) :
    ∃ before after, as = before ++ a :: after ∧ before.Nodup ∧ (∀ b ∈ before, b ∉ seen) ∧ (a ∈ seen ∨ a ∈ before) := by
  induction as generalizing seen with
  | nil => cases h
  | cons b as ih =>
    rw [firstRepeat?] at h
    split at h
    · rename_i hb
      cases h
      exact ⟨[], as, rfl, .nil, List.forall_mem_nil _, .inl hb⟩
    · rename_i hb
      obtain ⟨before, after, rfl, hn, hs, ha⟩ := ih h
      have hnew : b ∉ before := fun hm => hs b hm (List.mem_cons_self ..)
      refine ⟨b :: before, after, rfl, List.nodup_cons.2 ⟨hnew, hn⟩, ?_, ?_⟩
      · exact List.forall_mem_cons.2 ⟨hb, fun c hc hcs => hs c hc (List.mem_cons_of_mem _ hcs)⟩
      · simpa [or_comm, or_left_comm, or_assoc] using ha

theorem checks_checkDistinct {α : Type} [DecidableEq α] (repeated : α → Error) (as : List α) :
    Checks (checkDistinct repeated as) (distinctRequirement repeated as) where
  ok _ h := checkDistinct_eq_ok_iff.1 h
  error e h := by
    refine ⟨fun hn => ?_, ?_⟩
    · cases h.symm.trans ((checkDistinct_eq_ok_iff (u := ())).2 hn)
    · unfold checkDistinct at h
      split at h
      · rename_i a hf
        obtain ⟨before, after, hs, hn, _, ha⟩ := firstRepeat?_eq_some hf
        cases h
        exact ⟨before, a, after, hs, hn, by simpa using ha, rfl⟩
      · cases h

variable {amount : String} {decimals : Nat} {m : Uint256}

/-- An amount that is read as zero machine units, and no other, is zero machine units. -/
theorem machine_zero_iff (h : Amount.toMachine amount decimals = .ok m) : Machine amount decimals 0 ↔ m.toNat = 0 := by
  constructor
  · intro hz
    have hm : Amount.toMachine amount decimals = .ok .zero := Amount.toMachine_eq_ok_iff.2 hz
    cases h.symm.trans hm
    rfl
  · intro hz
    exact hz ▸ Amount.toMachine_eq_ok_iff.1 h

private theorem sideAccepted_iff {weights : List Decimal} (h : Amount.toMachine amount decimals = .ok m) :
    SideAccepted weights (m.toNat ≠ 0) ↔ SideInOrder weights amount decimals := by
  have hunit : (∀ w ∈ weights, w.inUnit) ↔ ∀ w ∈ weights, InUnit w := forall₂_congr fun _ _ => Decimal.inUnit_iff
  have hzero : (∀ w ∈ weights, w.isZero) ↔ ∀ w ∈ weights, w.toRat = 0 :=
    forall₂_congr fun _ _ => Decimal.toRat_eq_zero_iff.symm
  have hfunded : decide (m.toNat ≠ 0) = false ↔ Machine amount decimals 0 := by
    rw [machine_zero_iff h, decide_eq_false_iff_not, not_not]
  rw [SideInOrder, ← hunit, ← hzero, ← hfunded]
  exact ⟨fun ha => ⟨ha.inUnit, ha.sum⟩, fun ha => ⟨ha.1, ha.2⟩⟩

private theorem fault_of_checkSide {side : Char} {weights : List Decimal} {funded : Bool} {e : Error}
    (h : checkSide side weights funded = .error e) : (sideRequirement side weights amount decimals).reports e := by
  unfold checkSide at h
  split at h
  · rename_i w hw
    cases h
    obtain ⟨hout, before, after, hs, hin⟩ := List.find?_eq_some_iff_append.1 hw
    refine .inl ⟨before, w, after, hs, fun b hb => ?_, fun hu => ?_, rfl⟩
    · exact Decimal.inUnit_iff.1 (by simpa using hin b hb)
    · rw [Decimal.inUnit_iff.2 hu] at hout
      exact absurd hout (by decide)
  · rename_i hnone
    have hin : ∀ w ∈ weights, w.inUnit := by simpa using List.find?_eq_none.1 hnone
    simp only at h
    split at h
    · cases h
    · cases h
      exact .inr ⟨fun w hw => Decimal.inUnit_iff.1 (hin w hw), rfl⟩

private theorem checks_checkSide (side : Char) (weights : List Decimal) (h : Amount.toMachine amount decimals = .ok m) :
    Checks (checkSide side weights (m.toNat ≠ 0)) (sideRequirement side weights amount decimals) where
  ok _ hs := (sideAccepted_iff h).1 (checkSide_eq_ok_iff.1 hs)
  error e hs := by
    refine ⟨fun hn => ?_, fault_of_checkSide hs⟩
    cases hs.symm.trans ((checkSide_eq_ok_iff (u := ())).2 ((sideAccepted_iff h).2 hn))

private theorem checks_allocate (activeId : BinId) (amountX amountY : Uint256) (offset : Int32) (dx dy : Nat) :
    Checks (allocate activeId amountX amountY offset dx dy)
      ⟨InRange activeId offset, (· = .binIdOutOfRange (activeId.value + offset.toInt))⟩ where
  ok b h := by
    obtain ⟨id, hid, _⟩ := Error.bind_eq_ok_iff.1 h
    have hv := BinId.offset_eq_ok_iff.1 hid
    have hlt := id.isLt
    exact ⟨by omega, by omega⟩
  error e h := by
    rcases Error.bind_eq_error_iff.1 h with h | ⟨_, _, h⟩
    · exact BinId.offset_eq_error_iff.1 h
    · cases h

private theorem checks_bins {spread : List BinWeight} {shares : List (Nat × Nat)} (hlen : shares.length = spread.length)
    (activeId : BinId) (amountX amountY : Uint256) :
    Checks ((spread.zip shares).mapM fun (w, dx, dy) => allocate activeId amountX amountY w.offset dx dy)
      (rangeRequirement activeId (spread.map (·.offset))) := by
  have hoffsets : (spread.zip shares).map (·.1.offset) = spread.map (·.offset) := by
    have hfst : (spread.zip shares).map Prod.fst = spread := List.map_fst_zip hlen.ge
    conv_rhs => rw [← hfst, List.map_map]
    rfl
  rw [rangeRequirement, ← hoffsets]
  exact Requirement.checks_mapM (fun a => checks_allocate activeId amountX amountY a.1.offset a.2.1 a.2.2) _

theorem decides_compile (intent : LiquidityIntent) (activeId : BinId) (slippageBps : Nat) :
    Decides (compile intent activeId slippageBps) (requirements intent activeId slippageBps) := by
  unfold compile requirements
  refine Decides.bind (Requirement.checks_when Nat.not_lt.symm rfl) fun _ _ => ?_
  refine Decides.bind (Requirement.checks_when (not_congr List.isEmpty_iff.symm) rfl) fun _ _ => ?_
  refine Decides.bind (checks_toMachine _ _) fun x hx => ?_
  refine Decides.bind (checks_toMachine _ _) fun y hy => ?_
  refine Decides.bind (Requirement.checks_when ?_ rfl) fun _ _ => ?_
  · rw [machine_zero_iff hx, machine_zero_iff hy]
  refine Decides.bind (checks_checkDistinct _ _) fun _ _ => ?_
  refine Decides.bind (checks_checkSide 'x' _ hx) fun _ hsx => ?_
  refine Decides.bind (checks_checkSide 'y' _ hy) fun _ hsy => ?_
  -- Both sides are accepted, and the weights of an accepted side always have a distribution.
  rw [(checkSide_eq_ok_iff.1 hsx).distribution_eq, (checkSide_eq_ok_iff.1 hsy).distribution_eq]
  show Decides ((List.mapM _ (intent.spread.zip ((normalized _).zip (normalized _)))) >>= _) _
  refine Decides.bind (checks_bins ?_ activeId x y) fun _ _ => Decides.pure _
  rw [List.length_zip, length_normalized, length_normalized, List.length_map, List.length_map, Nat.min_self]

/-- What a plan makes of its deposit: the bins of the spread in its order, each at its id and with its shares. -/
structure Planned (intent : LiquidityIntent) (activeId : BinId) (slippageBps : Nat) (plan : AllocationPlan) : Prop where
  offsets : plan.bins.map (·.offset) = intent.spread.map (·.offset)
  binIds : ∀ b ∈ plan.bins, (b.binId.value : Int) = activeId.value + b.offset.toInt
  amountX : Machine intent.amountX intent.pair.tokenX.decimals.toNat plan.amountX.toNat
  amountY : Machine intent.amountY intent.pair.tokenY.decimals.toNat plan.amountY.toNat
  deposits : ∀ b ∈ plan.bins,
    b.depositX.toNat = plan.amountX.toNat * b.distributionX.toNat / Distribution.one ∧
      b.depositY.toNat = plan.amountY.toNat * b.distributionY.toNat / Distribution.one
  amountXMin : plan.amountXMin.toNat = plan.amountX.toNat * (10000 - slippageBps) / 10000
  amountYMin : plan.amountYMin.toNat = plan.amountY.toNat * (10000 - slippageBps) / 10000
  pair : plan.pair = intent.pair
  desiredActiveId : plan.desiredActiveId = activeId
  idSlippage : plan.idSlippage = intent.idSlippage

private theorem Compiled.planned {intent : LiquidityIntent} {activeId : BinId} {slippageBps : Nat}
    {plan : AllocationPlan}
    (h : Compiled intent activeId slippageBps plan) : Planned intent activeId slippageBps plan where
  offsets := h.bins.offsets
  binIds b hb := BinId.offset_eq_ok_iff.1 (h.bins.placed b hb).binId
  amountX := Amount.toMachine_eq_ok_iff.1 h.amountX
  amountY := Amount.toMachine_eq_ok_iff.1 h.amountY
  deposits b hb := by
    have hx : b.distributionX.toNat ∈ normalized (intent.spread.map (·.weightX)) :=
      h.bins.distributionX ▸ List.mem_map_of_mem hb
    have hy : b.distributionY.toNat ∈ normalized (intent.spread.map (·.weightY)) :=
      h.bins.distributionY ▸ List.mem_map_of_mem hb
    rw [(h.bins.placed b hb).depositX, (h.bins.placed b hb).depositY, toNat_share (le_one_of_mem_normalized hx),
      toNat_share (le_one_of_mem_normalized hy)]
    exact ⟨rfl, rfl⟩
  amountXMin := by rw [h.amountXMin, toNat_slippageFloor]
  amountYMin := by rw [h.amountYMin, toNat_slippageFloor]
  pair := h.pair
  desiredActiveId := h.desiredActiveId
  idSlippage := h.idSlippage

/-- A deposit is worked out exactly where all that is required of it is met, and otherwise the first requirement that
is not met is reported. No accepted weight fails to be scaled. -/
theorem compile_verdict (intent : LiquidityIntent) (activeId : BinId) (slippageBps : Nat) :
    ((∃ plan, compile intent activeId slippageBps = .ok plan) ↔
        ∀ r ∈ requirements intent activeId slippageBps, r.met) ∧
      (∀ e, compile intent activeId slippageBps = .error e →
        FirstUnmet (requirements intent activeId slippageBps) e) ∧
      (∀ plan, compile intent activeId slippageBps = .ok plan → Planned intent activeId slippageBps plan) ∧
      ∀ side weights funded, checkSide side weights funded = .ok () →
        ∃ raw, weights.mapM Distribution.ofWeight = .ok raw := by
  have hdec := decides_compile intent activeId slippageBps
  refine ⟨hdec.ok_iff, hdec.error, fun plan hp => (compile_eq_ok_iff.1 hp).planned, ?_⟩
  intro side weights funded h
  exact ⟨_, Distribution.mapM_ofWeight (checkSide_eq_ok_iff.1 h).inUnit⟩

end LiquidityBook.Allocation
