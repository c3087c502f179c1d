import LiquidityBook.Distribution
import LiquidityBook.Proofs.Decimal.Value
import Mathlib.Algebra.BigOperators.Group.List.Basic

/-! Weights as integers: what is cut off, and the way back. -/
namespace LiquidityBook.Distribution
open Decimal

/-- The integer of a weight in the unit interval. -/
def units (w : Decimal) : Nat := w.coefficient.toNat * one / 10 ^ w.scale

theorem ofWeight_of_inUnit {w : Decimal} (h : w.inUnit) : ofWeight w = .ok (units w) := if_pos h

theorem mapM_ofWeight {ws : List Decimal} (h : ∀ w ∈ ws, w.inUnit) : ws.mapM ofWeight = .ok (ws.map units) := by
  induction ws with
  | nil => rfl
  | cons w ws ih =>
    rw [List.mapM_cons, ofWeight_of_inUnit (h w (List.mem_cons_self ..)),
      ih fun v hv => h v (List.mem_cons_of_mem _ hv)]
    rfl

theorem toRat_mul_one {w : Decimal} (h : 0 ≤ w.toRat) :
    w.toRat * one = ((w.coefficient.toNat * one : Nat) : ℚ) / 10 ^ w.scale := by
  have hc : ((w.coefficient.toNat : Int) : ℚ) = w.coefficient := by
    rw [Int.toNat_of_nonneg (toRat_nonneg_iff.1 h)]
  rw [Decimal.toRat, Nat.cast_mul, ← hc, div_mul_eq_mul_div]
  rfl

theorem units_le_toRat {w : Decimal} (h : 0 ≤ w.toRat) : units w ≤ w.toRat * one := by
  rw [toRat_mul_one h, le_div_iff₀ (by positivity)]
  exact_mod_cast Nat.div_mul_le_self _ (10 ^ w.scale)

theorem toRat_lt_units {w : Decimal} (h : 0 ≤ w.toRat) : w.toRat * one < units w + 1 := by
  have hpos : 0 < 10 ^ w.scale := Nat.pow_pos (by decide)
  have hd : w.coefficient.toNat * one < (units w + 1) * 10 ^ w.scale := by
    rw [Nat.mul_comm (units w + 1)]
    exact Nat.lt_mul_div_succ _ hpos
  rw [toRat_mul_one h, div_lt_iff₀ (by positivity)]
  exact_mod_cast hd

/-- Less than one unit for each weight is cut off a sum. -/
theorem sum_units_bounds {ws : List Decimal} (h : ∀ w ∈ ws, 0 ≤ w.toRat) :
    ((ws.map units).sum : ℚ) ≤ (ws.map Decimal.toRat).sum * one ∧
      (ws.map Decimal.toRat).sum * one ≤ (ws.map units).sum + ws.length := by
  induction ws with
  | nil => simp
  | cons w ws ih =>
    obtain ⟨hlow, hhigh⟩ := ih fun v hv => h v (List.mem_cons_of_mem _ hv)
    have hw := h w (List.mem_cons_self ..)
    have hle := units_le_toRat hw
    have hlt := toRat_lt_units hw
    simp only [List.map_cons, List.sum_cons, List.length_cons, Nat.cast_add, Nat.cast_one, add_mul]
    constructor <;> linarith

/-- A weight made from an integer stands for that integer, and nothing of it is cut off. -/
theorem toWeight_spec {n : Nat} (h : n ≤ one) :
    ∃ w, toWeight n = .ok w ∧ w.toRat = n / one ∧ w.inUnit ∧ units w = n := by
  have hone : (0 : ℚ) < one := by norm_num [one]
  refine ⟨_, dif_pos h, ?_⟩
  generalize hw : Decimal.normalize _ = w
  have hr : w.toRat = n / one := by
    rw [← hw, toRat_normalize]
    norm_num [Decimal.toRat, coefficient, one]
  have h0 : 0 ≤ w.toRat := hr ▸ by positivity
  have hu : w.toRat * one = n := by rw [hr, div_mul_cancel₀ _ hone.ne']
  refine ⟨hr, inUnit_iff.2 ⟨h0, ?_⟩, Nat.le_antisymm ?_ (Nat.lt_succ_iff.1 ?_)⟩
  · rw [hr, div_le_one hone]
    exact_mod_cast h
  · exact_mod_cast hu ▸ units_le_toRat h0
  · exact_mod_cast hu ▸ toRat_lt_units h0

private theorem read_repr {n : Nat} (h : n ≤ one) : read n.repr = toWeight n := by
  have hlt : n < 2 ^ 128 := h.trans_lt (by decide)
  have hn : integer? n.repr = some ⟨n, hlt⟩ := by
    rw [integer?, Nat.toList_repr]
    change (Digits.readNat? (Digits.ofNat n)).bind _ = _
    rw [Digits.readNat?_ofNat]
    exact dif_pos hlt
  rw [read, hn]

/-- The texts of a distribution are read back as weights of the same integers. -/
theorem mapM_read_repr {ds : List Nat} (h : ∀ d ∈ ds, d ≤ one) :
    ∃ ws, (ds.map Nat.repr).mapM read = .ok ws ∧ ws.map Decimal.toRat = ds.map (fun d : Nat => (d : ℚ) / one) ∧
      (∀ w ∈ ws, w.inUnit) ∧ ws.map units = ds := by
  induction ds with
  | nil => exact ⟨[], rfl, rfl, nofun, rfl⟩
  | cons d ds ih =>
    obtain ⟨hd, hds⟩ := List.forall_mem_cons.1 h
    obtain ⟨w, hw, hr, hu, hn⟩ := toWeight_spec hd
    obtain ⟨ws, hws, hrs, hus, hns⟩ := ih hds
    refine ⟨w :: ws, ?_, ?_, List.forall_mem_cons.2 ⟨hu, hus⟩, ?_⟩
    · rw [List.map_cons, List.mapM_cons, read_repr hd, hw, hws]
      rfl
    · rw [List.map_cons, List.map_cons, hr, hrs]
    · rw [List.map_cons, hn, hns]

end LiquidityBook.Distribution
