import LiquidityBook.Proofs.Allocation.Side
import LiquidityBook.Proofs.Allocation.Slippage
import Mathlib.Data.List.Nodup

/-! What a worked-out deposit is: exactly when there is a plan, and what it holds, bin by bin. -/
namespace LiquidityBook.Allocation
open LiquidityBook.Distribution (one)

private theorem firstRepeat?_eq_none_iff {α : Type} [DecidableEq α] {seen as : List α} :
    firstRepeat? seen as = none ↔ as.Nodup ∧ ∀ a ∈ as, a ∉ seen := by
  induction as generalizing seen with
  | nil => simp [firstRepeat?]
  | cons a as ih =>
    rw [firstRepeat?, List.nodup_cons, List.forall_mem_cons]
    by_cases h : a ∈ seen
    · simp [h]
    · rw [if_neg h, ih]
      simp only [List.mem_cons, not_or, forall_and]
      constructor
      · rintro ⟨hn, hne, hs⟩
        exact ⟨⟨fun hm => hne a hm rfl, hn⟩, h, hs⟩
      · rintro ⟨⟨ha, hn⟩, _, hs⟩
        exact ⟨hn, fun b hb hba => ha (hba ▸ hb), hs⟩

theorem checkDistinct_eq_ok_iff {α : Type} [DecidableEq α] {repeated : α → Error} {as : List α} {u : Unit} :
    checkDistinct repeated as = .ok u ↔ as.Nodup := by
  have h : firstRepeat? [] as = none ↔ as.Nodup ∧ ∀ a ∈ as, a ∉ [] := firstRepeat?_eq_none_iff
  unfold checkDistinct
  cases hf : firstRepeat? [] as <;> simp_all

/-- The bin is at its offset, and the deposits are its shares of both amounts. -/
structure Placed (activeId : BinId) (amountX amountY : Uint256) (b : BinAllocation) : Prop where
  binId : activeId.offset b.offset.toInt = .ok b.binId
  depositX : b.depositX = share amountX b.distributionX.toNat
  depositY : b.depositY = share amountY b.distributionY.toNat

variable {activeId : BinId} {amountX amountY : Uint256}

private theorem toNat_clamp_of_le_one {d : Nat} (h : d ≤ one) : (Uint.clamp 128 d).toNat = d :=
  Uint.toNat_clamp (Nat.lt_of_le_of_lt h (by decide))

private theorem allocate_eq_ok_iff {offset : Int32} {dx dy : Nat} (hx : dx ≤ one) (hy : dy ≤ one) {b : BinAllocation} :
    allocate activeId amountX amountY offset dx dy = .ok b ↔
      (b.offset = offset ∧ b.distributionX.toNat = dx ∧ b.distributionY.toNat = dy) ∧
        Placed activeId amountX amountY b := by
  have hdx := toNat_clamp_of_le_one hx
  have hdy := toNat_clamp_of_le_one hy
  rw [allocate, Error.bind_eq_ok_iff]
  constructor
  · rintro ⟨id, hid, hb⟩
    cases hb
    exact ⟨⟨rfl, hdx, hdy⟩, ⟨hid, by rw [hdx], by rw [hdy]⟩⟩
  · rintro ⟨⟨rfl, rfl, rfl⟩, hp⟩
    refine ⟨b.binId, hp.binId, ?_⟩
    rw [Uint.ext hdx, Uint.ext hdy, ← hp.depositX, ← hp.depositY]
    rfl

/-- The bins column by column, in the order of the spread. -/
structure Allocated (activeId : BinId) (amountX amountY : Uint256) (offsets : List Int32)
    (distX distY : List Nat) (bins : List BinAllocation) : Prop where
  offsets : bins.map (·.offset) = offsets
  distributionX : bins.map (·.distributionX.toNat) = distX
  distributionY : bins.map (·.distributionY.toNat) = distY
  placed : ∀ b ∈ bins, Placed activeId amountX amountY b

private theorem mapM_allocate_eq_ok_iff {spread : List BinWeight} {distX distY : List Nat}
    (hlenX : distX.length = spread.length) (hlenY : distY.length = spread.length)
    (hX : ∀ d ∈ distX, d ≤ one) (hY : ∀ d ∈ distY, d ≤ one) {bins : List BinAllocation} :
    (spread.zip (distX.zip distY)).mapM (fun (w, dx, dy) => allocate activeId amountX amountY w.offset dx dy) =
        .ok bins ↔
      Allocated activeId amountX amountY (spread.map (·.offset)) distX distY bins := by
  induction spread generalizing distX distY bins with
  | nil =>
    rw [List.length_nil, List.length_eq_zero_iff] at hlenX hlenY
    subst hlenX hlenY
    constructor
    · intro h
      cases h
      exact ⟨rfl, rfl, rfl, nofun⟩
    · intro h
      rw [List.map_eq_nil_iff.1 h.offsets]
      rfl
  | cons w spread ih =>
    obtain ⟨dx, distX, rfl⟩ := List.exists_cons_of_length_eq_add_one hlenX
    obtain ⟨dy, distY, rfl⟩ := List.exists_cons_of_length_eq_add_one hlenY
    obtain ⟨hdx, hX⟩ := List.forall_mem_cons.1 hX
    obtain ⟨hdy, hY⟩ := List.forall_mem_cons.1 hY
    have hlenX : distX.length = spread.length := by simpa using hlenX
    have hlenY : distY.length = spread.length := by simpa using hlenY
    simp only [List.zip_cons_cons, List.mapM_cons, Error.bind_eq_ok_iff, allocate_eq_ok_iff hdx hdy,
      ih hlenX hlenY hX hY]
    constructor
    · rintro ⟨b, ⟨⟨ho, hbx, hby⟩, hb⟩, bs, hbs, hcons⟩
      cases hcons
      refine ⟨?_, ?_, ?_, List.forall_mem_cons.2 ⟨hb, hbs.placed⟩⟩
      · rw [List.map_cons, List.map_cons, ho, hbs.offsets]
      · rw [List.map_cons, hbx, hbs.distributionX]
      · rw [List.map_cons, hby, hbs.distributionY]
    · intro h
      obtain ⟨b, bs, rfl, ho, hos⟩ := List.map_eq_cons_iff.1 h.offsets
      obtain ⟨hbx, hbxs⟩ := List.cons_eq_cons.1 h.distributionX
      obtain ⟨hby, hbys⟩ := List.cons_eq_cons.1 h.distributionY
      obtain ⟨hb, hbs⟩ := List.forall_mem_cons.1 h.placed
      exact ⟨b, ⟨⟨ho, hbx, hby⟩, hb⟩, bs, ⟨hos, hbxs, hbys, hbs⟩, rfl⟩

private theorem mapM_allocate_normalized {spread : List BinWeight} {bins : List BinAllocation} :
    (spread.zip ((normalized (spread.map (·.weightX))).zip (normalized (spread.map (·.weightY))))).mapM
        (fun (w, dx, dy) => allocate activeId amountX amountY w.offset dx dy) = .ok bins ↔
      Allocated activeId amountX amountY (spread.map (·.offset)) (normalized (spread.map (·.weightX)))
        (normalized (spread.map (·.weightY))) bins := by
  refine mapM_allocate_eq_ok_iff ?_ ?_ (fun _ => le_one_of_mem_normalized) fun _ => le_one_of_mem_normalized
  · rw [length_normalized, List.length_map]
  · rw [length_normalized, List.length_map]

/-- The plan of a deposit: the intent is in order, and every part of the plan follows from it. -/
structure Compiled (intent : LiquidityIntent) (activeId : BinId) (slippageBps : Nat) (plan : AllocationPlan) :
    Prop where
  slippage : slippageBps ≤ 10000
  spread : intent.spread ≠ []
  amountX : Amount.toMachine intent.amountX intent.pair.tokenX.decimals.toNat = .ok plan.amountX
  amountY : Amount.toMachine intent.amountY intent.pair.tokenY.decimals.toNat = .ok plan.amountY
  funded : ¬(plan.amountX.toNat = 0 ∧ plan.amountY.toNat = 0)
  distinct : (intent.spread.map (·.offset)).Nodup
  sideX : SideAccepted (intent.spread.map (·.weightX)) (plan.amountX.toNat ≠ 0)
  sideY : SideAccepted (intent.spread.map (·.weightY)) (plan.amountY.toNat ≠ 0)
  bins : Allocated activeId plan.amountX plan.amountY (intent.spread.map (·.offset))
    (normalized (intent.spread.map (·.weightX))) (normalized (intent.spread.map (·.weightY))) plan.bins
  amountXMin : plan.amountXMin = slippageFloor plan.amountX slippageBps
  amountYMin : plan.amountYMin = slippageFloor plan.amountY slippageBps
  pair : plan.pair = intent.pair
  desiredActiveId : plan.desiredActiveId = activeId
  idSlippage : plan.idSlippage = intent.idSlippage

variable {intent : LiquidityIntent} {slippageBps : Nat} {plan : AllocationPlan}

/-- No spread is longer than there are offsets. -/
theorem Compiled.length_le (h : Compiled intent activeId slippageBps plan) : intent.spread.length ≤ 2 ^ 32 := by
  have hinj : Function.Injective fun o : Int32 => o.toBitVec.toFin := by
    intro a b hab
    exact Int32.toBitVec_inj.1 (BitVec.toFin_inj.1 hab)
  have hcard := (h.distinct.map hinj).length_le_card
  simpa using hcard

/-- Working out a deposit gives the plan that follows from its intent, and no plan where there is none. -/
theorem compile_eq_ok_iff :
    compile intent activeId slippageBps = .ok plan ↔ Compiled intent activeId slippageBps plan := by
  simp only [compile, checkSlippage, Error.bind_eq_ok_iff, Error.when_eq_ok_iff, checkDistinct_eq_ok_iff,
    checkSide_eq_ok_iff, exists_const]
  constructor
  · rintro ⟨hs, hne, x, hx, y, hy, hf, hd, sx, sy, dx, hdx, dy, hdy, bins, hb, hp⟩
    rw [sx.distribution_eq] at hdx
    rw [sy.distribution_eq] at hdy
    cases hdx
    cases hdy
    cases hp
    exact ⟨by omega, by simpa using hne, hx, hy, hf, hd, sx, sy, mapM_allocate_normalized.1 hb, rfl, rfl, rfl, rfl, rfl⟩
  · intro h
    refine ⟨by have := h.slippage; omega, by simpa using h.spread, plan.amountX, h.amountX, plan.amountY, h.amountY,
      h.funded, h.distinct, h.sideX, h.sideY, _, h.sideX.distribution_eq, _, h.sideY.distribution_eq, plan.bins,
      mapM_allocate_normalized.2 h.bins, ?_⟩
    rw [← h.amountXMin, ← h.amountYMin, ← h.pair, ← h.desiredActiveId, ← h.idSlippage]
    rfl

end LiquidityBook.Allocation
