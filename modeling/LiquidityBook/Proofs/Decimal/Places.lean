import LiquidityBook.Uint
import LiquidityBook.Proofs.Decimal.Value
import Mathlib.Algebra.Order.Floor.Semifield
import Mathlib.Data.Rat.Floor

/-! Fractional digits of decimals. The shortest form has no more of them than any other decimal of its number, and a
product that needs no more digits than a decimal holds is exact. -/
namespace LiquidityBook.Decimal
variable {a d : Decimal}

/-- The digit at a position behind the point, the first one being at position one. -/
def fractionDigit (a : Decimal) (position : Nat) : Nat :=
  if position ≤ a.scale then a.magnitude / 10 ^ (a.scale - position) % 10 else 0

private theorem pow_dvd_of_digits {m k : Nat} (h : ∀ j < k, m / 10 ^ j % 10 = 0) : 10 ^ k ∣ m := by
  induction k with
  | zero => exact one_dvd m
  | succ k ih =>
    obtain ⟨n, rfl⟩ := ih fun j hj => h j (Nat.lt_succ_of_lt hj)
    have hn := h k (Nat.lt_succ_self k)
    rw [Nat.mul_div_cancel_left _ (by positivity)] at hn
    rw [pow_succ]
    exact Nat.mul_dvd_mul_left _ (Nat.dvd_of_mod_eq_zero hn)

/-- All digits behind a position are zero where the power of ten of those digits divides the magnitude. -/
theorem fractionDigits_eq_zero_iff {k : Nat} :
    (∀ i, k < i → a.fractionDigit i = 0) ↔ 10 ^ (a.scale - k) ∣ a.magnitude := by
  constructor
  · intro h
    refine pow_dvd_of_digits fun j hj => ?_
    have hdigit := h (a.scale - j) (by omega)
    rwa [fractionDigit, if_pos (Nat.sub_le ..), Nat.sub_sub_self (by omega)] at hdigit
  · intro h i hi
    unfold fractionDigit
    split
    · have hdvd : 10 ^ (a.scale - i + 1) ∣ a.magnitude := (pow_dvd_pow 10 (by omega)).trans h
      rw [pow_succ] at hdvd
      exact Nat.mod_eq_zero_of_dvd (Nat.dvd_div_of_mul_dvd hdvd)
    · rfl

private theorem normalize_ends (a : Decimal) : a.normalize.scale = 0 ∨ ¬ 10 ∣ a.normalize.coefficient := by
  have hgo (scale : Nat) (c : Int) (hc : c.natAbs < 2 ^ 96) (hs : scale ≤ 28) :
      (normalize.go scale c hc hs).scale = 0 ∨ ¬ 10 ∣ (normalize.go scale c hc hs).coefficient := by
    induction scale generalizing c with
    | zero => exact .inl rfl
    | succ scale ih =>
      unfold normalize.go
      split
      · exact ih _ _ _
      · rename_i hz
        rw [coefficient_ofCoefficient]
        exact .inr fun hd => hz (Int.tmod_eq_zero_of_dvd hd)
  exact hgo a.scale a.coefficient _ a.scale_le

/-- No decimal of the same number has a lower scale than the shortest form. -/
theorem scale_normalize_le (h : d.toRat = a.toRat) : a.normalize.scale ≤ d.scale := by
  rcases a.normalize_ends with hz | hend
  · omega
  by_contra hlt
  obtain ⟨k, hk⟩ := Nat.exists_eq_add_of_lt (not_le.1 hlt)
  have hr : d.toRat = a.normalize.toRat := h.trans (toRat_normalize a).symm
  rw [toRat, toRat, div_eq_div_iff (by positivity) (by positivity), hk, add_assoc, pow_add, mul_comm (10 ^ d.scale),
    ← mul_assoc] at hr
  have hc : d.coefficient * 10 ^ (k + 1) = a.normalize.coefficient := by
    exact_mod_cast mul_right_cancel₀ (by positivity) hr
  rw [← hc, pow_succ, ← mul_assoc] at hend
  exact hend (dvd_mul_left _ _)

/-- The product, rounded once to as many of its fractional digits as fit. Its whole part has to fit. -/
def mul? (a b : Decimal) : Option Decimal :=
  let c := a.coefficient * b.coefficient
  let scale := a.scale + b.scale
  if (divHalfEvenInt c (10 ^ scale)).natAbs < 2 ^ 96 then some (fit c scale) else none

/-- The whole part of a decimal that is not negative, where it fits. -/
def toUint? (bits : Nat) (a : Decimal) : Option (Uint bits) :=
  if 0 ≤ a.coefficient then Uint.ofNat? bits (a.coefficient.toNat / 10 ^ a.scale) else none

theorem floor_toRat (h : 0 ≤ a.toRat) : ⌊a.toRat⌋₊ = a.coefficient.toNat / 10 ^ a.scale := by
  have hc : (a.coefficient : ℚ) = a.coefficient.toNat := by
    exact_mod_cast (Int.toNat_of_nonneg (toRat_nonneg_iff.1 h)).symm
  rw [toRat, hc]
  norm_cast

private theorem divHalfEvenInt_mul {q n : Nat} (hn : 0 < n) : divHalfEvenInt (q * n : Nat) n = q := by
  rcases Nat.eq_zero_or_pos q with rfl | hq
  · simp [divHalfEvenInt]
  · rw [natAbs_divHalfEvenInt (Nat.mul_pos hq hn), divHalfEven, Nat.mul_mod_left, Nat.mul_div_cancel _ hn,
      if_neg (by omega)]

private theorem toRat_go_of_zeros {q : Nat} (hq : q < 2 ^ 96) (places left dropped : Nat) (hs : places + left ≤ 28) :
    (fit.go (q * 10 ^ left * 10 ^ dropped : Nat) (places + left) dropped).toRat = q / 10 ^ places := by
  induction left generalizing dropped with
  | zero =>
    unfold fit.go
    simp only [divHalfEvenInt_mul (Nat.pow_pos (by decide : 0 < 10)), pow_zero, mul_one]
    rw [dif_pos ⟨by simpa using hq, hs⟩, toRat_ofCoefficient]
    rfl
  | succ left ih =>
    unfold fit.go
    simp only [divHalfEvenInt_mul (Nat.pow_pos (by decide : 0 < 10))]
    split
    · rw [toRat_ofCoefficient, pow_add 10 places, div_eq_div_iff (by positivity) (by positivity)]
      push_cast
      rw [mul_assoc, mul_comm (10 ^ (left + 1) : ℚ)]
    · have hrest := ih (dropped + 1) (by omega)
      rw [pow_succ 10 dropped, mul_comm (10 ^ dropped), ← mul_assoc, mul_assoc q, ← pow_succ] at hrest
      exact hrest

/-- A number that fits once zeros at its end are dropped is not rounded. -/
private theorem toRat_fit_of_zeros {q : Nat} (hq : q < 2 ^ 96) (places zeros : Nat) (hs : places + zeros ≤ 28) :
    (fit (q * 10 ^ zeros : Nat) (places + zeros)).toRat = q / 10 ^ places := by
  have hgo := toRat_go_of_zeros hq places zeros 0 hs
  rw [pow_zero, mul_one] at hgo
  exact hgo

/-- A decimal of the unit interval is multiplied by a power of ten without rounding, as the product has at most as many
digits as the larger of the two. -/
theorem exists_mul?_pow {shift : Decimal} {k : Nat} (hk : 10 ^ k + 1 < 2 ^ 96) (hs : shift.scale = 0)
    (hc : shift.coefficient = (10 ^ k : Nat)) (h0 : 0 ≤ a.toRat) (h1 : a.toRat ≤ 1) :
    ∃ d, a.mul? shift = some d ∧ d.toRat = a.toRat * 10 ^ k := by
  obtain ⟨m, hm⟩ := Int.eq_ofNat_of_zero_le (toRat_nonneg_iff.1 h0)
  have hle : m ≤ 10 ^ a.scale := by
    rw [toRat, hm, div_le_one (by positivity)] at h1
    exact_mod_cast h1
  have hwhole : (divHalfEvenInt (m * 10 ^ k : Nat) (10 ^ a.scale)).natAbs < 2 ^ 96 := by
    refine (natAbs_divHalfEvenInt_le _ _).trans_lt (lt_of_le_of_lt (Nat.succ_le_succ ?_) hk)
    rw [Int.natAbs_natCast]
    exact Nat.div_le_of_le_mul (Nat.mul_le_mul_right _ hle)
  have hmul : a.mul? shift = some (fit (m * 10 ^ k : Nat) a.scale) := by
    rw [mul?, hs, hc, hm, Nat.add_zero]
    exact_mod_cast if_pos hwhole
  refine ⟨_, hmul, ?_⟩
  have hr : a.toRat * 10 ^ k = (m * 10 ^ k : Nat) / 10 ^ a.scale := by
    rw [toRat, hm]
    push_cast
    exact div_mul_eq_mul_div _ _ _
  rw [hr]
  rcases Nat.le_total k a.scale with hks | hks
  · obtain ⟨places, hp⟩ := Nat.exists_eq_add_of_le' hks
    have hq : m < 2 ^ 96 := by
      have := a.natAbs_coefficient_lt
      rwa [hm] at this
    have hp28 := hp ▸ a.scale_le
    rw [hp, toRat_fit_of_zeros hq places k hp28, pow_add, Nat.cast_mul, Nat.cast_pow, Nat.cast_ofNat,
      mul_div_mul_right _ _ (by positivity)]
  · obtain ⟨extra, rfl⟩ := Nat.exists_eq_add_of_le hks
    have hq : m * 10 ^ extra < 2 ^ 96 := by
      have := Nat.mul_le_mul_right (10 ^ extra) hle
      rw [← pow_add] at this
      omega
    have hfit := toRat_fit_of_zeros hq 0 a.scale (by have := a.scale_le; omega)
    rw [Nat.zero_add, pow_zero, div_one] at hfit
    rw [pow_add, mul_comm (10 ^ a.scale), ← mul_assoc, hfit, Nat.cast_mul _ (10 ^ a.scale), Nat.cast_pow,
      Nat.cast_ofNat, mul_div_cancel_right₀ _ (by positivity)]

end LiquidityBook.Decimal
