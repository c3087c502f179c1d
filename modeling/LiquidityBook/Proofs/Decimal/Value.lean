import LiquidityBook.Decimal.Basic
import Mathlib.Algebra.Order.Field.Rat
import Mathlib.Tactic.FieldSimp
import Mathlib.Tactic.Linarith
import Mathlib.Tactic.Positivity

/-! The rational that a decimal stands for. Nonnegative decimals add exactly until their sum is far above
one, and no rounding after that brings it back. -/
namespace LiquidityBook.Decimal
variable {a b : Decimal}

def toRat (a : Decimal) : ℚ := a.coefficient / 10 ^ a.scale

theorem toRat_ofCoefficient (c : Int) (scale : Nat) (lt : c.natAbs < 2 ^ 96) (le : scale ≤ 28) :
    (ofCoefficient c scale lt le).toRat = c / 10 ^ scale := by
  rw [toRat, coefficient_ofCoefficient]
  rfl

theorem toRat_zero : zero.toRat = 0 := by simp [toRat, coefficient, zero]

theorem toRat_one : one.toRat = 1 := by simp [toRat, coefficient, one]

private theorem coefficient_eq_zero_iff : a.coefficient = 0 ↔ a.isZero := by
  rw [← Int.natAbs_eq_zero, natAbs_coefficient, isZero, beq_iff_eq]

theorem toRat_eq_zero_iff : a.toRat = 0 ↔ a.isZero := by
  rw [toRat, div_eq_zero_iff, ← coefficient_eq_zero_iff]
  simp

theorem toRat_nonneg_iff : 0 ≤ a.toRat ↔ 0 ≤ a.coefficient := by
  rw [toRat, le_div_iff₀ (by positivity), zero_mul]
  exact Int.cast_nonneg_iff

theorem toRat_neg (a : Decimal) : a.neg.toRat = -a.toRat := by
  have hc : a.neg.coefficient = -a.coefficient := by
    cases h : a.negative <;> simp [coefficient, neg, h]
  simp only [toRat, hc, neg_div, Int.cast_neg]
  rfl

theorem le_iff : a.le b ↔ a.toRat ≤ b.toRat := by
  rw [le, decide_eq_true_eq, toRat, toRat, div_le_div_iff₀ (by positivity) (by positivity)]
  exact_mod_cast Iff.rfl

theorem inUnit_iff : a.inUnit ↔ 0 ≤ a.toRat ∧ a.toRat ≤ 1 := by
  rw [inUnit, Bool.and_eq_true, decide_eq_true_eq, decide_eq_true_eq, toRat_nonneg_iff, toRat,
    div_le_one (by positivity)]
  exact_mod_cast Iff.rfl

private theorem rescaled_eq {scale : Nat} (h : a.scale ≤ scale) : (a.rescaled scale : ℚ) = a.toRat * 10 ^ scale := by
  rw [rescaled, toRat, Int.cast_mul, Int.cast_pow, div_mul_eq_mul_div, eq_div_iff (by positivity), mul_assoc,
    Int.cast_ofNat, ← pow_add, Nat.sub_add_cancel h]

private theorem divHalfEvenInt_one (c : Int) : divHalfEvenInt c (10 ^ 0) = c := by
  rw [divHalfEvenInt, divHalfEven, pow_zero, Nat.div_one, Nat.mod_one, if_neg (by simp)]
  exact Int.sign_mul_natAbs c

theorem fit_of_lt {c : Int} {scale : Nat} (h : c.natAbs < 2 ^ 96) (hs : scale ≤ 28) :
    fit c scale = ofCoefficient c scale h hs := by
  rw [fit]
  unfold fit.go
  simp only [divHalfEvenInt_one]
  rw [dif_pos ⟨h, hs⟩]

private theorem le_divHalfEven (n d : Nat) : n / d ≤ divHalfEven n d := by
  simp only [divHalfEven]
  split <;> omega

theorem natAbs_divHalfEvenInt {n : Nat} (h : 0 < n) (d : Nat) : divHalfEvenInt n d = divHalfEven n d := by
  rw [divHalfEvenInt, Int.sign_eq_one_of_pos (by omega), Int.natAbs_natCast, one_mul]

/-- Nonnegative decimals whose sum is below this number add exactly. -/
def headroom : Nat := 7

private theorem headroom_lt {scale : Nat} (h : scale ≤ 28) : headroom * 10 ^ scale < 2 ^ 96 :=
  Nat.lt_of_le_of_lt (Nat.mul_le_mul_left _ (Nat.pow_le_pow_right (by decide) h)) (by decide)

private theorem headroom_le_ofCoefficient {n scale : Nat} (h : headroom * 10 ^ scale ≤ n)
    (lt : (n : Int).natAbs < 2 ^ 96) (le : scale ≤ 28) : headroom ≤ (ofCoefficient n scale lt le).toRat := by
  rw [toRat_ofCoefficient, le_div_iff₀ (by positivity)]
  exact_mod_cast h

private theorem headroom_le_clampWhole {n : Nat} (h : headroom ≤ n) : headroom ≤ (clampWhole n).toRat := by
  unfold clampWhole
  split
  · exact headroom_le_ofCoefficient (by simpa using h) _ _
  · have hn : ¬ (n : Int) < 0 := by omega
    simp only [toRat, coefficient, headroom, hn, decide_false, Bool.false_eq_true, if_false]
    norm_num

private theorem headroom_le_go {c : Nat} (places dropped : Nat)
    (hc : headroom * 10 ^ (places + dropped) ≤ c) : headroom ≤ (fit.go c places dropped).toRat := by
  have hpos : 0 < c := lt_of_lt_of_le (by simp [headroom]) hc
  have hround (places dropped : Nat) (hc : headroom * 10 ^ (places + dropped) ≤ c) :
      headroom * 10 ^ places ≤ divHalfEven c (10 ^ dropped) := by
    refine le_trans ?_ (le_divHalfEven _ _)
    rwa [Nat.le_div_iff_mul_le (by positivity), mul_assoc, ← pow_add]
  induction places generalizing dropped with
  | zero =>
    unfold fit.go
    simp only [natAbs_divHalfEvenInt hpos]
    split
    · exact headroom_le_ofCoefficient (hround 0 dropped hc) _ _
    · exact headroom_le_clampWhole (by simpa using hround 0 dropped hc)
  | succ places ih =>
    unfold fit.go
    simp only [natAbs_divHalfEvenInt hpos]
    split
    · exact headroom_le_ofCoefficient (hround (places + 1) dropped hc) _ _
    · exact ih (dropped + 1) (by rwa [Nat.add_right_comm] at hc)

/-- The decimal stands for the number, or both are above the headroom. -/
def Tracks (a : Decimal) (x : ℚ) : Prop := a.toRat = x ∨ ((headroom : ℚ) ≤ x ∧ (headroom : ℚ) ≤ a.toRat)

private theorem tracks_fit {c scale : Nat} (hs : scale ≤ 28) : Tracks (fit c scale) (c / 10 ^ scale) := by
  by_cases h : c < 2 ^ 96
  · rw [fit_of_lt (by simpa using h) hs]
    exact .inl (toRat_ofCoefficient _ _ _ _)
  · have hc : headroom * 10 ^ scale ≤ c := by
      have := headroom_lt hs
      omega
    refine .inr ⟨?_, headroom_le_go scale 0 hc⟩
    rw [le_div_iff₀ (by positivity)]
    exact_mod_cast hc

private theorem add_of_isZero (h : a.isZero) : add a b = b := by rw [add, if_pos h]

private theorem add_of_isZero_right (ha : ¬ a.isZero) (h : b.isZero) : add a b = a := by rw [add, if_neg ha, if_pos h]

private theorem add_eq_fit (ha : ¬ a.isZero) (hb : ¬ b.isZero) :
    add a b = fit (a.rescaled (max a.scale b.scale) + b.rescaled (max a.scale b.scale)) (max a.scale b.scale) := by
  rw [add, if_neg ha, if_neg hb]

private theorem exists_add_eq_fit (ha : ¬ a.isZero) (hb : ¬ b.isZero) :
    ∃ c scale, scale ≤ 28 ∧ add a b = fit c scale ∧ (c : ℚ) = (a.toRat + b.toRat) * 10 ^ scale := by
  have hra := rescaled_eq (a := a) (Nat.le_max_left a.scale b.scale)
  have hrb := rescaled_eq (a := b) (Nat.le_max_right a.scale b.scale)
  refine ⟨_, max a.scale b.scale, Nat.max_le.2 ⟨a.scale_le, b.scale_le⟩, add_eq_fit ha hb, ?_⟩
  rw [Int.cast_add, hra, hrb, add_mul]

private theorem tracks_add (ha : 0 ≤ a.toRat) (hb : 0 ≤ b.toRat) : Tracks (add a b) (a.toRat + b.toRat) := by
  by_cases hza : a.isZero
  · rw [add_of_isZero hza, toRat_eq_zero_iff.2 hza, zero_add]
    exact .inl rfl
  by_cases hzb : b.isZero
  · rw [add_of_isZero_right hza hzb, toRat_eq_zero_iff.2 hzb, add_zero]
    exact .inl rfl
  obtain ⟨c, scale, hs, hfit, hsum⟩ := exists_add_eq_fit hza hzb
  obtain ⟨n, rfl⟩ := Int.eq_ofNat_of_zero_le (a := c) (by
    have : (0 : ℚ) ≤ (c : ℚ) := by
      rw [hsum]
      positivity
    exact_mod_cast this)
  have hx : a.toRat + b.toRat = n / 10 ^ scale := by
    rw [eq_div_iff (by positivity), ← hsum]
    rfl
  rw [hfit, hx]
  exact tracks_fit hs

private theorem Tracks.add {x : ℚ} (h : Tracks a x) (hx : 0 ≤ x) (hb : 0 ≤ b.toRat) :
    Tracks (a.add b) (x + b.toRat) := by
  rcases h with rfl | ⟨hx', ha⟩
  · exact tracks_add hx hb
  · have ha0 : 0 ≤ a.toRat := le_trans (Nat.cast_nonneg _) ha
    refine .inr ⟨by linarith, ?_⟩
    rcases tracks_add ha0 hb with hs | ⟨_, hs⟩
    · rw [hs]
      linarith
    · exact hs

/-- A sum of nonnegative decimals is exact, or both it and the exact sum are above the headroom. -/
theorem tracks_sum {ws : List Decimal} (h : ∀ w ∈ ws, 0 ≤ w.toRat) : Tracks (sum ws) (ws.map toRat).sum := by
  have hfold (a : Decimal) (x : ℚ) (hx : 0 ≤ x) (ha : Tracks a x) :
      Tracks (ws.foldl Decimal.add a) (x + (ws.map toRat).sum) := by
    induction ws generalizing a x with
    | nil => simpa using ha
    | cons w ws ih =>
      have hw := h w (List.mem_cons_self ..)
      have hs := ih (fun v hv => h v (List.mem_cons_of_mem _ hv)) (a.add w) (x + w.toRat)
        (by linarith) (ha.add hx hw)
      rwa [add_assoc, ← List.sum_cons] at hs
  have hz := hfold zero 0 le_rfl (.inl toRat_zero)
  rwa [zero_add] at hz

theorem toRat_sum_of_lt {ws : List Decimal} (h : ∀ w ∈ ws, 0 ≤ w.toRat) (hlt : (ws.map toRat).sum < headroom) :
    (sum ws).toRat = (ws.map toRat).sum := by
  rcases tracks_sum h with hs | ⟨hx, _⟩
  · exact hs
  · exact absurd hlt (not_lt.2 hx)

/-- Decimals of any signs add exactly where their sum is not beyond the headroom. -/
theorem toRat_add_of_abs_le (h : |a.toRat + b.toRat| ≤ headroom) : (add a b).toRat = a.toRat + b.toRat := by
  by_cases hza : a.isZero
  · rw [add_of_isZero hza, toRat_eq_zero_iff.2 hza, zero_add]
  by_cases hzb : b.isZero
  · rw [add_of_isZero_right hza hzb, toRat_eq_zero_iff.2 hzb, add_zero]
  obtain ⟨c, scale, hs, hfit, hsum⟩ := exists_add_eq_fit hza hzb
  have hle : c.natAbs ≤ headroom * 10 ^ scale := by
    have habs : |(c : ℚ)| ≤ headroom * 10 ^ scale := by
      rw [hsum, abs_mul, abs_of_pos (by positivity : (0 : ℚ) < 10 ^ scale)]
      exact mul_le_mul_of_nonneg_right h (by positivity)
    have hcast : (c.natAbs : ℚ) ≤ (headroom * 10 ^ scale : Nat) := by
      rw [Nat.cast_natAbs]
      exact_mod_cast habs
    exact_mod_cast hcast
  rw [hfit, fit_of_lt (hle.trans_lt (headroom_lt hs)) hs, toRat_ofCoefficient, hsum,
    mul_div_cancel_right₀ _ (by positivity)]

theorem toRat_sub_of_abs_le (h : |a.toRat - b.toRat| ≤ headroom) : (sub a b).toRat = a.toRat - b.toRat := by
  by_cases hb : b.isZero
  · rw [sub, if_pos hb, toRat_eq_zero_iff.2 hb, sub_zero]
  · have hadd : (add a b.neg).toRat = a.toRat + b.neg.toRat := by
      apply toRat_add_of_abs_le
      rwa [toRat_neg, ← sub_eq_add_neg]
    rw [sub, if_neg hb, hadd, toRat_neg, ← sub_eq_add_neg]

theorem coefficient_of_nonneg (h : 0 ≤ a.toRat) : a.coefficient = a.magnitude := by
  have hc := toRat_nonneg_iff.1 h
  have hm := a.natAbs_coefficient
  omega

/-- Taking one away from a nonnegative decimal is exact. -/
theorem toRat_sub_one (h : 0 ≤ a.toRat) : (sub a one).toRat = a.toRat - 1 := by
  have hs : sub a one = add a one.neg := rfl
  have hone : one.neg.toRat = -1 := by rw [toRat_neg, toRat_one]
  rw [hs]
  by_cases hza : a.isZero
  · rw [add_of_isZero hza, hone, toRat_eq_zero_iff.2 hza, zero_sub]
  have hc := coefficient_of_nonneg h
  have hra : a.rescaled a.scale = a.magnitude := by rw [rescaled, Nat.sub_self, pow_zero, mul_one, hc]
  have hro : one.neg.rescaled a.scale = -((10 ^ a.scale : Nat) : Int) := by
    simp [rescaled, neg, one, coefficient]
  have hlt : ((a.magnitude : Int) + -((10 ^ a.scale : Nat) : Int)).natAbs < 2 ^ 96 := by
    have hm := a.magnitude_lt
    have h10 := headroom_lt a.scale_le
    simp only [headroom] at h10
    omega
  have hmax : max a.scale one.neg.scale = a.scale := Nat.max_eq_left (Nat.zero_le _)
  rw [add_eq_fit hza (by decide), hmax, hra, hro, fit_of_lt hlt a.scale_le, toRat_ofCoefficient, toRat, hc]
  push_cast
  field_simp
  exact (sub_eq_add_neg _ _).symm

theorem toRat_normalize (a : Decimal) : a.normalize.toRat = a.toRat := by
  have hgo (scale : Nat) (c : Int) (hc : c.natAbs < 2 ^ 96) (hs : scale ≤ 28) :
      (normalize.go scale c hc hs).toRat = c / 10 ^ scale := by
    induction scale generalizing c with
    | zero => exact toRat_ofCoefficient c 0 hc hs
    | succ scale ih =>
      unfold normalize.go
      split
      · rename_i hz
        rw [ih, div_eq_div_iff (by positivity) (by positivity)]
        have hd : ((c.tdiv 10 : Int) : ℚ) * 10 = c := by
          exact_mod_cast Int.tdiv_mul_cancel (Int.dvd_of_tmod_eq_zero hz)
        rw [pow_succ', ← mul_assoc, hd]
      · exact toRat_ofCoefficient c (scale + 1) hc hs
  exact hgo a.scale a.coefficient _ a.scale_le

end LiquidityBook.Decimal
