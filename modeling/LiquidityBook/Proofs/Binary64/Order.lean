import LiquidityBook.Binary64.Basic
import Mathlib.Algebra.Order.Ring.Int
import Mathlib.Order.Compare
import Mathlib.Tactic.Ring

/-! Doubles as integers. A double that is not a NaN is counted in the least positive double, an infinity as more than
all finite ones. The order of doubles is then that of the counts, and the conversion to 64 bits finds an integer. -/
namespace LiquidityBook.Binary64
open Float.Model Float.Model.UnpackedFloat

/-- What unpacking yields: the significand fills its 53 bits, unless the exponent is the least one. -/
def Canonical : UnpackedFloat → Prop
  | .finite _ m e _ => m < 2 ^ 53 ∧ -1074 ≤ e ∧ e ≤ 971 ∧ (2 ^ 52 ≤ m ∨ e = -1074)
  | _ => True

/-- A significand times a power of two, counted in the least positive double. -/
def scaled (m : Nat) (e : Int) : Nat := m * 2 ^ (e + 1074).toNat

/-- The number that would come after the largest finite double, in the same count. -/
def overflow : Nat := scaled (2 ^ 52) 972

/-- How often the least positive double, `2 ^ -1074`, goes into one. The count of a NaN is of no meaning. -/
def count : UnpackedFloat → Int
  | .infinity s => s.apply overflow
  | .finite s m e _ => s.apply (scaled m e)
  | .notANumber | .zero _ => 0

private theorem toNat_append_one (m : BitVec 52) : (1#1 ++ m).toNat = 2 ^ 52 + m.toNat := by
  rw [BitVec.toNat_append, ← Nat.shiftLeft_add_eq_or_of_lt m.isLt]
  rfl

private theorem canonical_unpack (x : Float.Model) : Canonical x.unpack := by
  have hm : (@unpackMantissa Format.binary64 x.toBits.toBitVec).toNat < 2 ^ 52 := BitVec.isLt _
  have he : (@unpackExponent Format.binary64 x.toBits.toBitVec).toNat < 2 ^ 11 := BitVec.isLt _
  have hbias : (Format.binary64.exponentBias : Int) = 1023 := rfl
  unfold Float.Model.unpack UnpackedFloat.unpack
  dsimp only
  by_cases htop : @unpackExponent Format.binary64 x.toBits.toBitVec = -1#11
  · rw [if_pos htop]
    split <;> trivial
  rw [if_neg htop]
  by_cases hzero : @unpackExponent Format.binary64 x.toBits.toBitVec = 0#11
  · -- a zero, or a subnormal number: the exponent field is read as one
    rw [if_pos hzero]
    have hfield : (@unpackExponent Format.binary64 x.toBits.toBitVec).toNat = 0 := congrArg BitVec.toNat hzero
    by_cases hm0 : @unpackMantissa Format.binary64 x.toBits.toBitVec = 0#52
    · rw [dif_pos hm0]
      trivial
    · rw [dif_neg hm0]
      exact ⟨by omega, by omega, by omega, by omega⟩
  · rw [if_neg hzero]
    have hne : (@unpackExponent Format.binary64 x.toBits.toBitVec).toNat ≠ 0 :=
      fun h => hzero (BitVec.eq_of_toNat_eq h)
    have hne' : (@unpackExponent Format.binary64 x.toBits.toBitVec).toNat ≠ 2047 :=
      fun h => htop (BitVec.eq_of_toNat_eq h)
    have hone := toNat_append_one (@unpackMantissa Format.binary64 x.toBits.toBitVec)
    exact ⟨by omega, by omega, by omega, by omega⟩

private theorem scaled_lt_scaled {m n : Nat} {e f : Int} (hm : m < 2 ^ 53) (he : -1074 ≤ e) (hn : 2 ^ 52 ≤ n)
    (hef : e < f) :
    scaled m e < scaled n f := by
  have hexp : (e + 1074).toNat + 1 ≤ (f + 1074).toNat := by omega
  calc scaled m e < 2 ^ 53 * 2 ^ (e + 1074).toNat := Nat.mul_lt_mul_of_pos_right hm (Nat.two_pow_pos _)
    _ = 2 ^ 52 * 2 ^ ((e + 1074).toNat + 1) := by ring
    _ ≤ 2 ^ 52 * 2 ^ (f + 1074).toNat := Nat.mul_le_mul_left _ (Nat.pow_le_pow_right Nat.two_pos hexp)
    _ ≤ scaled n f := Nat.mul_le_mul_right _ hn

private theorem scaled_lt_overflow {m : Nat} {e : Int} (hm : m < 2 ^ 53) (he : -1074 ≤ e) (htop : e ≤ 971) :
    scaled m e < overflow := scaled_lt_scaled hm he le_rfl (by omega)

private theorem scaled_pos {m : Nat} (hm : 0 < m) (e : Int) : 0 < scaled m e := Nat.mul_pos hm (Nat.two_pow_pos _)

private theorem compare_scaled {s t : Sign} {m n : Nat} {e f : Int} {hm : 0 < m} {hn : 0 < n}
    (hc : Canonical (.finite s m e hm))
    (hd : Canonical (.finite t n f hn)) : (compare e f).then (compare m n) = compare (scaled m e) (scaled n f) := by
  obtain ⟨hm, he, _, hme⟩ := hc
  obtain ⟨hn, hf, _, hnf⟩ := hd
  rcases lt_trichotomy e f with hlt | rfl | hlt
  · rw [compare_lt_iff_lt.2 hlt, compare_lt_iff_lt.2 (scaled_lt_scaled hm he (by omega) hlt)]
    rfl
  · have hpos := Nat.two_pow_pos (e + 1074).toNat
    rw [compare_eq_iff_eq.2 rfl, Ordering.then, scaled, scaled]
    rcases lt_trichotomy m n with hmn | rfl | hmn
    · rw [compare_lt_iff_lt.2 hmn, compare_lt_iff_lt.2 (Nat.mul_lt_mul_of_pos_right hmn hpos)]
    · rw [compare_eq_iff_eq.2 rfl, compare_eq_iff_eq.2 rfl]
    · rw [compare_gt_iff_gt.2 hmn, compare_gt_iff_gt.2 (Nat.mul_lt_mul_of_pos_right hmn hpos)]
  · rw [compare_gt_iff_gt.2 hlt, compare_gt_iff_gt.2 (scaled_lt_scaled hn hf (by omega) hlt)]
    rfl

private theorem compare_cast (m n : Nat) : compare (m : Int) n = compare m n := by
  rw [Int.compare_eq_ite_lt, Nat.compare_eq_ite_lt]
  simp only [Int.ofNat_lt]

private theorem compare_neg (a b : Int) : compare (-a) (-b) = (compare a b).swap := by
  rw [Int.compare_swap, Int.compare_eq_ite_lt, Int.compare_eq_ite_lt]
  simp only [Int.neg_lt_neg_iff]

private theorem compare_finite {s t : Sign} {m n : Nat} {e f : Int} {hm : 0 < m} {hn : 0 < n}
    (hc : Canonical (.finite s m e hm)) (hd : Canonical (.finite t n f hn)) :
    (UnpackedFloat.finite s m e hm).compare (.finite t n f hn) =
      some (compare (s.apply (scaled m e)) (t.apply (scaled n f))) := by
  have hpos := scaled_pos hm e
  have hpos' := scaled_pos hn f
  cases s <;> cases t <;> dsimp only [UnpackedFloat.compare, Sign.apply]
  · rw [compare_scaled hc hd, compare_neg, compare_cast]
  · rw [Int.compare_eq_lt.2 (by omega)]
  · rw [Int.compare_eq_gt.2 (by omega)]
  · rw [compare_scaled hc hd, compare_cast]

private theorem compare_count {a b : UnpackedFloat} (ha : Canonical a) (hb : Canonical b) (hna : a.isNaN = false)
    (hnb : b.isNaN = false) : a.compare b = some (compare (count a) (count b)) := by
  have hfin {s m e h} (hc : Canonical (.finite s m e h)) : 0 < scaled m e ∧ scaled m e < overflow :=
    ⟨scaled_pos h e, scaled_lt_overflow hc.1 hc.2.1 hc.2.2.1⟩
  have htop : 0 < overflow := scaled_pos (by decide) _
  have hlt {x y : Int} (h : x < y) : some Ordering.lt = some (compare x y) := by rw [Int.compare_eq_lt.2 h]
  have hgt {x y : Int} (h : y < x) : some Ordering.gt = some (compare x y) := by rw [Int.compare_eq_gt.2 h]
  have heq (x : Int) : some Ordering.eq = some (compare x x) := by rw [Int.compare_eq_eq.2 rfl]
  cases a with
  | notANumber => cases hna
  | zero s =>
    cases b with
    | notANumber => cases hnb
    | zero t => exact heq 0
    | infinity t =>
      cases t <;> dsimp only [UnpackedFloat.compare, count, Sign.apply]
      exacts [hgt (by omega), hlt (by omega)]
    | finite t n f hn =>
      have := hfin hb
      cases t <;> dsimp only [UnpackedFloat.compare, count, Sign.apply]
      exacts [hgt (by omega), hlt (by omega)]
  | infinity s =>
    cases b with
    | notANumber => cases hnb
    | zero t =>
      cases s <;> dsimp only [UnpackedFloat.compare, count, Sign.apply]
      exacts [hlt (by omega), hgt (by omega)]
    | infinity t =>
      cases s <;> cases t <;> dsimp only [UnpackedFloat.compare, count, Sign.apply]
      exacts [heq _, hlt (by omega), hgt (by omega), heq _]
    | finite t n f hn =>
      have := hfin hb
      cases s <;> cases t <;> dsimp only [UnpackedFloat.compare, count, Sign.apply]
      exacts [hlt (by omega), hlt (by omega), hgt (by omega), hgt (by omega)]
  | finite s m e hm =>
    have := hfin ha
    cases b with
    | notANumber => cases hnb
    | zero t =>
      cases s <;> dsimp only [UnpackedFloat.compare, count, Sign.apply]
      exacts [hlt (by omega), hgt (by omega)]
    | infinity t =>
      cases s <;> cases t <;> dsimp only [UnpackedFloat.compare, count, Sign.apply]
      exacts [hgt (by omega), hlt (by omega), hgt (by omega), hlt (by omega)]
    | finite t n f hn => exact compare_finite ha hb

def units (x : Float) : Int := count x.toModel.unpack

/-- The double is this integer: its count is that many times the count of one. -/
def IsWhole (x : Float) (n : Int) : Prop := x.isFinite ∧ units x = n * scaled 1 0

instance {x : Float} {n : Int} : Decidable (IsWhole x n) := inferInstanceAs (Decidable (_ ∧ _))

theorem isNaN_of_isFinite {x : Float} (h : x.isFinite) : x.isNaN = false := by
  change x.toModel.unpack.isFinite at h
  change x.toModel.unpack.isNaN = false
  generalize x.toModel.unpack = u at h ⊢
  cases u with
  | notANumber => cases h
  | _ => rfl

variable {x y : Float}

private theorem le_iff : x ≤ y ↔ x.toModel.unpack.le y.toModel.unpack := decide_eq_true_iff

private theorem lt_iff : x < y ↔ x.toModel.unpack.lt y.toModel.unpack := decide_eq_true_iff

theorem le_iff_units (hx : x.isNaN = false) (hy : y.isNaN = false) : x ≤ y ↔ units x ≤ units y := by
  rw [le_iff, UnpackedFloat.le, compare_count (canonical_unpack _) (canonical_unpack _) hx hy]
  exact Int.isLE_compare

theorem lt_iff_units (hx : x.isNaN = false) (hy : y.isNaN = false) : x < y ↔ units x < units y := by
  rw [lt_iff, UnpackedFloat.lt, compare_count (canonical_unpack _) (canonical_unpack _) hx hy, beq_iff_eq,
    Option.some.injEq]
  exact Int.compare_eq_lt

theorem isNaN_of_le (h : x ≤ y) : x.isNaN = false := by
  rw [le_iff, UnpackedFloat.le] at h
  change x.toModel.unpack.isNaN = false
  generalize x.toModel.unpack = u at h ⊢
  cases u with
  | notANumber => cases h
  | _ => rfl

private theorem mantissa_shiftRight (a : ExtendedMantissa) (n : Nat) : (a >>> n).mantissa = a.mantissa / 2 ^ n := by
  change (n.repeat ExtendedMantissa.shiftRightOne a).mantissa = _
  induction n with
  | zero => exact (Nat.div_one _).symm
  | succ n ih => rw [Nat.repeat, ExtendedMantissa.shiftRightOne, ih, Nat.div_div_eq_div_mul, pow_succ]

private theorem roundToInt_eq (s : Sign) (m : Nat) (e : Int) :
    roundToInt s m e = s.apply (m * 2 ^ e.toNat / 2 ^ (-e).toNat : Nat) := by
  have hshift : (0 - (e - e.toNat)).toNat = (-e).toNat := by omega
  simp only [roundToInt, decreaseExponent, shiftToExponent, mantissa_shiftRight, Nat.shiftLeft_eq, Int.sub_zero, hshift]
  rfl

private theorem scaled_mul {m : Nat} {e : Int} (he : -1074 ≤ e) :
    scaled m e * 2 ^ (-e).toNat = m * 2 ^ e.toNat * scaled 1 0 := by
  have hexp : (e + 1074).toNat + (-e).toNat = e.toNat + 1074 := by omega
  rw [scaled, scaled, one_mul, mul_assoc, mul_assoc, ← pow_add, ← pow_add, hexp]
  rfl

private theorem whole_part {m k : Nat} {e : Int} (he : -1074 ≤ e) (h : scaled m e = k * scaled 1 0) :
    m * 2 ^ e.toNat / 2 ^ (-e).toNat = k := by
  have hone : 0 < scaled 1 0 := scaled_pos Nat.one_pos 0
  have hmul := scaled_mul (m := m) he
  rw [h, mul_right_comm] at hmul
  exact Nat.div_eq_of_eq_mul_left (Nat.two_pow_pos _) (Nat.eq_of_mul_eq_mul_right hone hmul).symm

private theorem one_pos : 0 < (scaled 1 0 : Int) := Int.ofNat_lt.2 (scaled_pos Nat.one_pos 0)

private theorem exists_natCast_of_mul {a c : Nat} {n : Int} (hc : 0 < (c : Int)) (h : (a : Int) = n * c) :
    ∃ k : Nat, n = k ∧ a = k * c := by
  obtain ⟨k, rfl⟩ := Int.eq_ofNat_of_zero_le (nonneg_of_mul_nonneg_left (h ▸ Int.natCast_nonneg a) hc)
  exact ⟨k, rfl, by exact_mod_cast h⟩

private theorem toInt_eq {u : UnpackedFloat} {n lowest highest : Int} (hc : Canonical u) (hfin : u.isFinite)
    (h : count u = n * scaled 1 0) : u.toInt lowest highest = n := by
  cases u with
  | notANumber => cases hfin
  | infinity s => cases hfin
  | zero s =>
    rcases Int.mul_eq_zero.1 h.symm with hn | hz
    · exact hn.symm
    · exact absurd hz one_pos.ne'
  | finite s m e hm =>
    change roundToInt s m e = n
    rw [roundToInt_eq]
    cases s with
    | positive =>
      obtain ⟨k, rfl, hk⟩ := exists_natCast_of_mul one_pos h
      rw [whole_part hc.2.1 hk, Sign.apply]
    | negative =>
      have hneg : (scaled m e : Int) = -n * scaled 1 0 := by
        rw [Int.neg_mul, ← h]
        exact (Int.neg_neg _).symm
      obtain ⟨k, hk, hs⟩ := exists_natCast_of_mul one_pos hneg
      rw [whole_part hc.2.1 hs, Sign.apply, ← hk, Int.neg_neg]

/-- A double that is an integer is converted to it, or to the bound of 64 bits next to it. -/
theorem toInt64_eq {n : Int} (h : IsWhole x n) : toInt64 x = Int64.ofIntClamp n :=
  congrArg Int64.ofIntClamp (toInt_eq (canonical_unpack _) h.1 h.2)

theorem lt_iff_of_isWhole {n k : Int} (hx : IsWhole x n) (hy : IsWhole y k) : x < y ↔ n < k := by
  rw [lt_iff_units (isNaN_of_isFinite hx.1) (isNaN_of_isFinite hy.1), hx.2, hy.2]
  exact mul_lt_mul_iff_left₀ one_pos

end LiquidityBook.Binary64
