import LiquidityBook.Proofs.Allocation.Verdict
import LiquidityBook.Proofs.Decimal.Quotient
import LiquidityBook.Proofs.Spread.Symmetric

/-! Spreads of the predefined shapes. The sides of a spread are exact whatever the rounding of its shares, so that
every deposit that uses it can be worked out. -/
namespace LiquidityBook.Shape
open Decimal (toRat HalfEven divHalfEven)

variable {radius : UInt32} {side : List Decimal} {spread : List BinWeight} {shape : Shape}

/-- How many bins a spread reaches on either side of the active one. -/
def reach : Shape → Nat
  | spot => 0
  | uniform radius | curve radius _ => radius.toNat

/-- The share of each bin beside the active one, where all of them are the same. -/
def uniformShare (radius : Nat) : Decimal := Decimal.ofRatio 2 (2 * radius + 1)

/-- The shapes that there are spreads for, with the shares of a side. The active bin needs a part of one that the
shares of a curve leave. -/
inductive Admitted : Shape → List Decimal → Prop
  | spot : Admitted spot []
  | uniform {radius : UInt32} (small : radius.toNat < 2 ^ 23) :
    Admitted (uniform radius) (List.replicate radius.toNat (uniformShare radius.toNat))
  | curve {radius : UInt32} {sigma : Float} {side : List Decimal} (small : radius.toNat < 2 ^ 23)
      (finite : sigma.isFinite) (positive : 0.0 < sigma) (built : curveSide radius.toNat sigma = .ok side)
      (left : SideInUnit side) :
    Admitted (curve radius sigma) side

/-- The share is a number of 28 fractional digits, and of these the nearest to two parts in `2 * radius + 1`. Of two
that are equally near it is the even one. -/
def RoundedShare (radius : Nat) (share : Decimal) : Prop :=
  ∃ q : Nat, share.toRat = q / 10 ^ 28 ∧ HalfEven q (2 * 10 ^ 28 / (2 * radius + 1))

private theorem mul_quotient_le {r : Nat} (hr : r < 2 ^ 23) : r * divHalfEven (2 * 10 ^ 28) (2 * r + 1) ≤ 10 ^ 28 := by
  have hround := Nat.mul_le_mul_left r (Decimal.divHalfEven_le (2 * 10 ^ 28) (2 * r + 1))
  have hwhole := Nat.div_mul_le_self (2 * 10 ^ 28) (2 * r + 1)
  have hroom : 2 * r ≤ 2 * 10 ^ 28 / (2 * r + 1) := by
    rw [Nat.le_div_iff_mul_le (by omega)]
    calc 2 * r * (2 * r + 1) ≤ 2 ^ 24 * 2 ^ 24 := Nat.mul_le_mul (by omega) (by omega)
      _ ≤ 2 * 10 ^ 28 := by norm_num
  generalize 2 * 10 ^ 28 / (2 * r + 1) = whole at hround hwhole hroom
  linarith

private theorem toRat_uniformShare (radius : Nat) :
    (uniformShare radius).toRat = divHalfEven (2 * 10 ^ 28) (2 * radius + 1) / 10 ^ 28 := by
  refine Decimal.toRat_ofRatio ((Decimal.divHalfEven_le _ _).trans_lt ?_)
  have := Nat.div_le_self (2 * 10 ^ 28) (2 * radius + 1)
  omega

private theorem roundedShare_uniformShare (radius : Nat) : RoundedShare radius (uniformShare radius) := by
  refine ⟨_, toRat_uniformShare radius, ?_⟩
  have h := Decimal.halfEven_divHalfEven (2 * 10 ^ 28) (d := 2 * radius + 1) (by omega)
  simp only [Nat.cast_mul, Nat.cast_pow, Nat.cast_add, Nat.cast_one, Nat.cast_ofNat] at h
  exact h

example : (uniformShare 5).text = "0.1818181818181818181818181818" := by decide +kernel

private theorem sideInUnit_uniform {r : Nat} (hr : r < 2 ^ 23) : SideInUnit (List.replicate r (uniformShare r)) where
  nonneg w hw := by
    rw [List.eq_of_mem_replicate hw, toRat_uniformShare]
    positivity
  sum_le := by
    rw [List.map_replicate, List.sum_replicate, nsmul_eq_mul, toRat_uniformShare, ← mul_div_assoc,
      div_le_one (by positivity)]
    exact_mod_cast mul_quotient_le hr

private theorem around_of_lt {build : Nat → Except Error (List Decimal)} (small : radius.toNat < 2 ^ 23)
    (built : build radius.toNat = .ok side) : around radius build = .ok (symmetric side) := by
  rw [around, checkRadius, if_pos small]
  change build radius.toNat >>= _ = _
  rw [built]
  rfl

private theorem around_of_le (large : 2 ^ 23 ≤ radius.toNat) (build : Nat → Except Error (List Decimal)) :
    around radius build = .error (.schemaViolation (.radiusTooLarge radius.toNat)) := by
  rw [around, checkRadius, if_neg (Nat.not_lt.2 large)]
  rfl

private theorem length_of_mapM {α β : Type} {f : α → Except Error β} {as : List α} {bs : List β}
    (h : as.mapM f = .ok bs) : bs.length = as.length := by
  induction as generalizing bs with
  | nil =>
    cases h
    rfl
  | cons a as ih =>
    rw [List.mapM_cons] at h
    obtain ⟨b, _, h⟩ := Error.bind_eq_ok_iff.1 h
    obtain ⟨bs', hbs, h⟩ := Error.bind_eq_ok_iff.1 h
    cases h
    rw [List.length_cons, List.length_cons, ih hbs]

namespace Admitted

private theorem length_eq (h : Admitted shape side) : side.length = shape.reach := by
  cases h with
  | spot => rfl
  | uniform => exact List.length_replicate
  | curve _ _ _ built => exact (length_of_mapM built).trans List.length_range'

private theorem reach_lt (h : Admitted shape side) : shape.reach < 2 ^ 23 := by
  cases h with
  | spot => decide
  | uniform small => exact small
  | curve small => exact small

private theorem sideInUnit (h : Admitted shape side) : SideInUnit side := by
  cases h with
  | spot => exact ⟨List.forall_mem_nil _, zero_le_one⟩
  | uniform small => exact sideInUnit_uniform small
  | curve _ _ _ _ left => exact left

private theorem weights_eq (h : Admitted shape side) : shape.weights = .ok (symmetric side) := by
  cases h with
  | spot => rfl
  | uniform small => exact around_of_lt small rfl
  | curve small finite positive built =>
    rw [weights, if_pos (by simpa using ⟨finite, positive⟩)]
    exact around_of_lt small built

end Admitted

/-- Deposits with this spread can be worked out: all whose bins have ids, whose amounts can be read and are not both
zero, and whose slippage is at most the whole amount. -/
def Compiles (radius : Nat) (spread : List BinWeight) : Prop :=
  ∀ (intent : LiquidityIntent) (activeId : BinId) (slippageBps : Nat) (x y : Uint256), intent.spread = spread →
    Amount.toMachine intent.amountX intent.pair.tokenX.decimals.toNat = .ok x →
    Amount.toMachine intent.amountY intent.pair.tokenY.decimals.toNat = .ok y → ¬ (x.toNat = 0 ∧ y.toNat = 0) →
    radius ≤ activeId.value → activeId.value + radius < 2 ^ 24 → slippageBps ≤ 10000 →
    ∃ plan, Allocation.compile intent activeId slippageBps = .ok plan

private theorem sideInOrder_of_sum {column : List Decimal} (hunit : ∀ w ∈ column, Allocation.InUnit w)
    (hsum : (Decimal.sum column).toRat = 1) (amount : String) (decimals : Nat) :
    Allocation.SideInOrder column amount decimals := by
  have hexact : (column.map toRat).sum = 1 := by
    rcases Decimal.tracks_sum fun w hw => (hunit w hw).1 with h | ⟨_, h⟩
    · rw [← h, hsum]
    · norm_num [hsum, Decimal.headroom] at h
  refine ⟨hunit, .inl ?_⟩
  norm_num [hexact]

namespace Balanced

private theorem nodup (h : Balanced side spread) : (spread.map (·.offset)).Nodup := by
  have hint : ((spread.map (·.offset)).map Int32.toInt).Nodup := by
    rw [List.map_map]
    change (spread.map (·.offset.toInt)).Nodup
    rw [h.offsets]
    exact List.nodup_range.map fun i j hij => by simpa using hij
  exact hint.of_map

private theorem mem_offset (h : Balanced side spread) {o : Int32} (ho : o ∈ spread.map (·.offset)) :
    -side.length ≤ o.toInt ∧ o.toInt ≤ side.length := by
  obtain ⟨w, hw, rfl⟩ := List.mem_map.1 ho
  have hmem : w.offset.toInt ∈ Shape.offsets side.length := h.offsets ▸ List.mem_map_of_mem hw
  obtain ⟨i, hi, hio⟩ := List.mem_map.1 hmem
  have := List.mem_range.1 hi
  omega

private theorem ne_nil (h : Balanced side spread) : spread ≠ [] := by
  rintro rfl
  have hlen := congrArg List.length h.offsets
  simp [Shape.offsets] at hlen

private theorem compiles (h : Balanced side spread) : Compiles side.length spread := by
  intro intent activeId slippageBps x y hspread hx hy hfunded hlow hhigh hslip
  refine (Allocation.decides_compile intent activeId slippageBps).ok_iff.2 ?_
  have hunitX : ∀ w ∈ spread.map (·.weightX), Allocation.InUnit w :=
    List.forall_mem_map.2 fun w hw => (h.inUnit w hw).1
  have hunitY : ∀ w ∈ spread.map (·.weightY), Allocation.InUnit w :=
    List.forall_mem_map.2 fun w hw => (h.inUnit w hw).2
  have hrange : ∀ o ∈ spread.map (·.offset), Allocation.InRange activeId o := by
    intro o ho
    have := h.mem_offset ho
    constructor <;> omega
  rw [Allocation.requirements, hspread]
  simp only [List.forall_mem_cons]
  refine ⟨hslip, h.ne_nil, ⟨_, Amount.toMachine_eq_ok_iff.1 hx⟩, ⟨_, Amount.toMachine_eq_ok_iff.1 hy⟩, ?_, h.nodup,
    sideInOrder_of_sum hunitX h.sumX _ _, sideInOrder_of_sum hunitY h.sumY _ _, hrange, List.forall_mem_nil _⟩
  rwa [Allocation.machine_zero_iff hx, Allocation.machine_zero_iff hy]

end Balanced

/-- The spreads of the predefined shapes are exact, and deposits with them can always be worked out. A radius beyond
the range of ids is refused whatever would build the side. -/
theorem weights_exact :
    (∀ shape side, Admitted shape side → ∃ spread, shape.weights = .ok spread ∧ side.length = shape.reach ∧
      Balanced side spread ∧ Compiles shape.reach spread) ∧
    (∀ radius, RoundedShare radius (uniformShare radius)) ∧
    ∀ radius : UInt32, 2 ^ 23 ≤ radius.toNat →
      (∀ build, around radius build = .error (.schemaViolation (.radiusTooLarge radius.toNat))) ∧
      (uniform radius).weights = .error (.schemaViolation (.radiusTooLarge radius.toNat)) ∧
      ∀ sigma, (curve radius sigma).weights =
        if sigma.isFinite && 0.0 < sigma then .error (.schemaViolation (.radiusTooLarge radius.toNat))
        else .error (.schemaViolation (.curveWidth (Binary64.text sigma))) := by
  refine ⟨fun shape side h => ?_, roundedShare_uniformShare,
    fun radius large => ⟨around_of_le large, ?_, fun sigma => ?_⟩⟩
  · have hlen := h.length_eq
    have hbal := h.sideInUnit.balanced (hlen.trans_lt h.reach_lt)
    exact ⟨symmetric side, h.weights_eq, hlen, hbal, hlen ▸ hbal.compiles⟩
  · exact around_of_le large _
  · rw [weights, around_of_le large]

/-- A deposit over eleven bins. -/
theorem weights_exact_eleven_bins : ∃ spread, (uniform 5).weights = .ok spread ∧
    Balanced (List.replicate 5 (uniformShare 5)) spread ∧
    ∃ plan, Allocation.compile ⟨⟨⟨"x", "hash", "TOKENX", 6⟩, ⟨"y", "hash", "TOKENY", 6⟩, 100⟩, "1", "2.5", spread, 10⟩
      .center 50 = .ok plan := by
  obtain ⟨spread, hw, _, hbal, hcompiles⟩ := weights_exact.1 (uniform 5) _ (.uniform (by decide))
  have hx : Amount.toMachine "1" 6 = .ok (.clamp 256 1000000) := by decide +kernel
  have hy : Amount.toMachine "2.5" 6 = .ok (.clamp 256 2500000) := by decide +kernel
  exact ⟨spread, hw, hbal, hcompiles _ .center 50 _ _ rfl hx hy (by decide) (by decide) (by decide) (by decide)⟩

end LiquidityBook.Shape
