import LiquidityBook.Decimal.Rounded
import LiquidityBook.Proofs.Decimal.Value

/-! Quotients as decimals: the nearest number of 28 fractional digits, where two are equally near the even one. -/
namespace LiquidityBook.Decimal
variable {n d q : Nat}

/-- The integer is nearest to the number, and the even one where two are equally near. -/
structure HalfEven (q : Nat) (x : ℚ) : Prop where
  near : |q - x| ≤ 1 / 2
  even : |q - x| = 1 / 2 → q % 2 = 0

/-- How far the integer is from the quotient, counted in parts of the divisor. -/
private theorem abs_sub_ratio (hd : 0 < d) : |(q : ℚ) - n / d| = ((q * d - n : Int).natAbs : ℚ) / d := by
  have hpos : (0 : ℚ) < d := by exact_mod_cast hd
  have hdiff : (q : ℚ) - n / d = ((q * d - n : Int) : ℚ) / d := by
    push_cast
    field_simp
  rw [hdiff, abs_div, abs_of_pos hpos, Nat.cast_natAbs, Int.cast_abs]

private theorem halfEven_iff (hd : 0 < d) : HalfEven q (n / d) ↔
    2 * (q * d - n : Int).natAbs ≤ d ∧ (2 * (q * d - n : Int).natAbs = d → q % 2 = 0) := by
  have hpos : (0 : ℚ) < d := by exact_mod_cast hd
  have hle : |(q : ℚ) - n / d| ≤ 1 / 2 ↔ 2 * (q * d - n : Int).natAbs ≤ d := by
    rw [abs_sub_ratio hd, div_le_div_iff₀ hpos two_pos, one_mul, mul_comm]
    exact_mod_cast Iff.rfl
  have heq : |(q : ℚ) - n / d| = 1 / 2 ↔ 2 * (q * d - n : Int).natAbs = d := by
    rw [abs_sub_ratio hd, div_eq_div_iff hpos.ne' two_ne_zero, one_mul, mul_comm]
    exact_mod_cast Iff.rfl
  rw [← hle, ← heq]
  exact ⟨fun h => ⟨h.near, h.even⟩, fun h => ⟨h.1, h.2⟩⟩

theorem halfEven_divHalfEven (n : Nat) (hd : 0 < d) : HalfEven (divHalfEven n d) (n / d) := by
  have hlt := Nat.mod_lt n hd
  have hsplit : (n : Int) = (n / d : Nat) * d + (n % d : Nat) := by exact_mod_cast (Nat.div_add_mod' n d).symm
  have hkept : ((n / d : Nat) * d - n : Int).natAbs = n % d := by omega
  have hraised : (((n / d + 1 : Nat) : Int) * d - n).natAbs = d - n % d := by
    rw [Nat.cast_add, Nat.cast_one, add_mul, one_mul]
    omega
  rw [halfEven_iff hd, divHalfEven]
  split
  · rw [hraised]
    omega
  · rw [hkept]
    omega

private theorem toRat_normalize_fit (h : q < 2 ^ 96) : (fit q 28).normalize.toRat = q / 10 ^ 28 := by
  rw [toRat_normalize, fit_of_lt (by simpa using h) le_rfl, toRat_ofCoefficient, Int.cast_natCast]

/-- A quotient that is not too large is rounded once. -/
theorem toRat_ofRatio (h : divHalfEven (n * 10 ^ 28) d < 2 ^ 96) :
    (ofRatio n d).toRat = divHalfEven (n * 10 ^ 28) d / 10 ^ 28 := by
  rw [ofRatio, toRat_normalize_fit h]

end LiquidityBook.Decimal
