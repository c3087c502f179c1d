import LiquidityBook.Proofs.Decimal.Value
import LiquidityBook.Spread

/-! Spreads made from the shares of one side: where each bin stands, and what both columns of weights add up to. -/
namespace LiquidityBook.Shape
open Decimal (toRat)

variable {side : List Decimal} {w : BinWeight}

/-- What the shares of a side leave to the active bin. -/
def center (side : List Decimal) : Decimal := Decimal.sub .one (Decimal.sum side)

private theorem symmetric_eq (side : List Decimal) :
    symmetric side = below side ++ ⟨0, center side, center side⟩ :: above side := rfl

/-- Where a weight of the spread stands: at a distance on either side, counted from zero, or in the active bin. -/
inductive Position (side : List Decimal) (w : BinWeight) : Prop
  | below (i : Nat) (share : side[i]? = some w.weightY) (offset : w.offset.toInt = -(i + 1)) (zero : w.weightX = .zero)
  | active (offset : w.offset.toInt = 0) (shareX : w.weightX = center side) (shareY : w.weightY = center side)
  | above (i : Nat) (share : side[i]? = some w.weightX) (offset : w.offset.toInt = i + 1) (zero : w.weightY = .zero)

/-- The shares are numbered from one, so that their numbers are the distances, which have room in 32 bits. -/
private theorem numbered (hlen : side.length < 2 ^ 23) {p : Decimal × Nat} (hp : p ∈ side.zipIdx 1) :
    (∃ i, p.2 = i + 1 ∧ side[i]? = some p.1) ∧
      (Int32.ofInt (-p.2)).toInt = -p.2 ∧ (Int32.ofInt p.2).toInt = p.2 := by
  obtain ⟨hd, hs⟩ := List.mem_zipIdx_iff_le_and_getElem?_sub.1 hp
  obtain ⟨hlt, _⟩ := List.getElem?_eq_some_iff.1 hs
  refine ⟨⟨p.2 - 1, by omega, hs⟩, ?_, ?_⟩
  · exact Int32.toInt_ofInt_of_le (by omega) (by omega)
  · exact Int32.toInt_ofInt_of_le (by omega) (by omega)

private theorem position (hlen : side.length < 2 ^ 23) (h : w ∈ symmetric side) : Position side w := by
  rw [symmetric_eq, List.mem_append, List.mem_cons] at h
  rcases h with h | rfl | h
  · obtain ⟨p, hp, rfl⟩ := List.mem_map.1 (List.mem_reverse.1 h)
    obtain ⟨⟨i, hd, hi⟩, hoffset, _⟩ := numbered hlen hp
    exact .below i hi (hoffset.trans (by omega)) rfl
  · exact .active rfl rfl rfl
  · obtain ⟨p, hp, rfl⟩ := List.mem_map.1 h
    obtain ⟨⟨i, hd, hi⟩, _, hoffset⟩ := numbered hlen hp
    exact .above i hi (hoffset.trans (by omega)) rfl

private theorem map_weightX_symmetric (side : List Decimal) :
    (symmetric side).map (·.weightX) = List.replicate side.length .zero ++ center side :: side := by
  have hbelow : (below side).map (·.weightX) = List.replicate side.length .zero := by
    rw [below, List.map_reverse, List.map_map, List.reverse_eq_iff, List.reverse_replicate,
      ← List.length_zipIdx (i := 1)]
    exact List.map_const'
  have habove : (above side).map (·.weightX) = side := by
    rw [above, List.map_map]
    exact List.zipIdx_map_fst 1 side
  rw [symmetric_eq, List.map_append, List.map_cons, hbelow, habove]

private theorem map_weightY_symmetric (side : List Decimal) :
    (symmetric side).map (·.weightY) = side.reverse ++ center side :: List.replicate side.length .zero := by
  have hbelow : (below side).map (·.weightY) = side.reverse := by
    rw [below, List.map_reverse, List.map_map]
    exact congrArg _ (List.zipIdx_map_fst 1 side)
  have habove : (above side).map (·.weightY) = List.replicate side.length .zero := by
    rw [above, List.map_map, ← List.length_zipIdx (i := 1)]
    exact List.map_const'
  rw [symmetric_eq, List.map_append, List.map_cons, hbelow, habove]

def offsets (radius : Nat) : List Int := (List.range (2 * radius + 1)).map fun i : Nat => (i : Int) - radius

private theorem offsets_eq (radius : Nat) : offsets radius =
    ((List.range' 1 radius).map fun d : Nat => -(d : Int)).reverse ++ 0 :: (List.range' 1 radius).map Nat.cast := by
  have hsplit : 2 * radius + 1 = radius + (radius + 1) := by omega
  rw [offsets, hsplit, List.range_add, List.range_succ_eq_map, List.map_append, ← List.map_reverse,
    List.reverse_range', List.range'_eq_map_range]
  simp only [List.map_map, List.map_cons]
  refine congrArg₂ _ (List.map_congr_left ?_) (congrArg₂ _ (by simp) (List.map_congr_left ?_))
  · intro i hi
    have := List.mem_range.1 hi
    simp only [Function.comp_apply]
    omega
  · intro i _
    simp only [Function.comp_apply]
    omega

private theorem map_offset_symmetric (hlen : side.length < 2 ^ 23) :
    (symmetric side).map (·.offset.toInt) = offsets side.length := by
  have hbelow : (below side).map (·.offset.toInt) =
      ((List.range' 1 side.length).map fun d : Nat => -(d : Int)).reverse := by
    rw [below, List.map_reverse, List.map_map, ← List.zipIdx_map_snd 1 side, List.map_map]
    exact congrArg _ (List.map_congr_left fun p hp => (numbered hlen hp).2.1)
  have habove : (above side).map (·.offset.toInt) = (List.range' 1 side.length).map Nat.cast := by
    rw [above, List.map_map, ← List.zipIdx_map_snd 1 side, List.map_map]
    exact List.map_congr_left fun p hp => (numbered hlen hp).2.2
  rw [symmetric_eq, List.map_append, List.map_cons, hbelow, habove, offsets_eq]
  rfl

/-- A spread that reaches the same number of bins on both sides, by the shares at each distance. -/
structure Balanced (side : List Decimal) (spread : List BinWeight) : Prop where
  /-- Each offset once, in ascending order. -/
  offsets : spread.map (·.offset.toInt) = offsets side.length
  below : ∀ w ∈ spread, w.offset.toInt < 0 → w.weightX = .zero
  above : ∀ w ∈ spread, 0 < w.offset.toInt → w.weightY = .zero
  shares : ∀ w ∈ spread, ∀ i : Nat, w.offset.toInt = i + 1 → side[i]? = some w.weightX
  mirrored : ∀ v ∈ spread, ∀ w ∈ spread, w.offset.toInt = -v.offset.toInt → v.weightX = w.weightY
  inUnit : ∀ w ∈ spread, (0 ≤ w.weightX.toRat ∧ w.weightX.toRat ≤ 1) ∧ (0 ≤ w.weightY.toRat ∧ w.weightY.toRat ≤ 1)
  sumX : (Decimal.sum (spread.map (·.weightX))).toRat = 1
  sumY : (Decimal.sum (spread.map (·.weightY))).toRat = 1

/-- The shares of a side leave a part of one to the active bin. -/
structure SideInUnit (side : List Decimal) : Prop where
  nonneg : ∀ w ∈ side, 0 ≤ w.toRat
  sum_le : (side.map toRat).sum ≤ 1

namespace SideInUnit

private theorem sum_nonneg (h : SideInUnit side) : 0 ≤ (side.map toRat).sum :=
  List.sum_nonneg (List.forall_mem_map.2 h.nonneg)

private theorem toRat_center (h : SideInUnit side) : (center side).toRat = 1 - (side.map toRat).sum := by
  have h0 := h.sum_nonneg
  have h1 := h.sum_le
  have hsum : (Decimal.sum side).toRat = (side.map toRat).sum :=
    Decimal.toRat_sum_of_lt h.nonneg (h1.trans_lt (by norm_num [Decimal.headroom]))
  rw [center, Decimal.toRat_sub_of_abs_le, Decimal.toRat_one, hsum]
  rw [Decimal.toRat_one, hsum, abs_le]
  constructor <;> norm_num [Decimal.headroom] <;> linarith

private theorem le_one (h : SideInUnit side) {share : Decimal} (hs : share ∈ side) : share.toRat ≤ 1 :=
  (List.single_le_sum (List.forall_mem_map.2 h.nonneg) _ (List.mem_map_of_mem hs)).trans h.sum_le

private theorem inUnit_center (h : SideInUnit side) : 0 ≤ (center side).toRat ∧ (center side).toRat ≤ 1 := by
  have h0 := h.sum_nonneg
  have h1 := h.sum_le
  rw [h.toRat_center]
  constructor <;> linarith

private theorem toRat_sum_column (h : SideInUnit side) {column : List Decimal}
    (hc : column.Perm (List.replicate side.length .zero ++ center side :: side)) : (Decimal.sum column).toRat = 1 := by
  have hsum : (column.map toRat).sum = 1 := by
    rw [(hc.map toRat).sum_eq, List.map_append, List.map_cons, List.map_replicate, List.sum_append, List.sum_cons,
      List.sum_replicate, Decimal.toRat_zero, nsmul_zero, h.toRat_center, zero_add, sub_add_cancel]
  have hshares : ∀ w ∈ center side :: side, 0 ≤ w.toRat := List.forall_mem_cons.2 ⟨h.inUnit_center.1, h.nonneg⟩
  have hnonneg : ∀ w ∈ column, 0 ≤ w.toRat := by
    intro w hw
    rcases List.mem_append.1 (hc.mem_iff.1 hw) with hw | hw
    · rw [List.eq_of_mem_replicate hw, Decimal.toRat_zero]
    · exact hshares w hw
  rw [Decimal.toRat_sum_of_lt hnonneg (by norm_num [hsum, Decimal.headroom]), hsum]

theorem balanced (h : SideInUnit side) (hlen : side.length < 2 ^ 23) : Balanced side (symmetric side) where
  offsets := map_offset_symmetric hlen
  below w hw ho := by
    cases position hlen hw with
    | below i _ _ hx => exact hx
    | active hi => omega
    | above i _ hi => omega
  above w hw ho := by
    cases position hlen hw with
    | below i _ hi => omega
    | active hi => omega
    | above i _ _ hy => exact hy
  shares w hw i ho := by
    cases position hlen hw with
    | below j _ hj => omega
    | active hj => omega
    | above j hs hj =>
      obtain rfl : j = i := by omega
      exact hs
  mirrored v hv w hw ho := by
    cases position hlen hv with
    | below i _ hi hx =>
      cases position hlen hw with
      | below j _ hj => omega
      | active hj => omega
      | above j _ _ hy => rw [hx, hy]
    | active hi hx =>
      cases position hlen hw with
      | below j _ hj => omega
      | active _ _ hy => rw [hx, hy]
      | above j _ hj => omega
    | above i hs hi =>
      cases position hlen hw with
      | below j hs' hj =>
        obtain rfl : j = i := by omega
        exact Option.some.inj (hs.symm.trans hs')
      | active hj => omega
      | above j _ hj => omega
  inUnit w hw := by
    have hzero : 0 ≤ Decimal.zero.toRat ∧ Decimal.zero.toRat ≤ 1 := by norm_num [Decimal.toRat_zero]
    have hshare {share : Decimal} {i : Nat} (hi : side[i]? = some share) : 0 ≤ share.toRat ∧ share.toRat ≤ 1 :=
      ⟨h.nonneg _ (List.mem_of_getElem? hi), h.le_one (List.mem_of_getElem? hi)⟩
    cases position hlen hw with
    | below i hs _ hx => exact ⟨hx ▸ hzero, hshare hs⟩
    | active _ hx hy => exact ⟨hx ▸ h.inUnit_center, hy ▸ h.inUnit_center⟩
    | above i hs _ hy => exact ⟨hshare hs, hy ▸ hzero⟩
  sumX := h.toRat_sum_column (by rw [map_weightX_symmetric])
  sumY := h.toRat_sum_column (by
    rw [map_weightY_symmetric]
    exact List.perm_append_comm.trans ((side.reverse_perm.append_left _).trans (List.perm_middle.symm)))

end SideInUnit

end LiquidityBook.Shape
