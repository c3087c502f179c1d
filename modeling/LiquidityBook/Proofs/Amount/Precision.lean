import LiquidityBook.Proofs.Amount.Canonical

/-! Amounts with a fixed number of fractional digits. With room for all decimals the text denotes the amount itself, and
with less it denotes the nearest number of that many digits, a half going up. -/
namespace LiquidityBook.Amount
open Digits (padRight)

/-- A plain numeral with this many fractional digits, and a point only if there are any. -/
structure IsFixed (places : Nat) (text : String) : Prop extends IsPlain text where
  length : (fractionPart text).length = places
  point : '.' ∈ text.toList ↔ places ≠ 0

/-- The text of `n / 10 ^ places` with all of its places. -/
def fixed (places n : Nat) : String := join (n / 10 ^ places) (fractionDigits places (n % 10 ^ places))

variable {value : Uint256} {decimals places : Nat}

private theorem isFixed_fixed (places n : Nat) : IsFixed places (fixed places n) := by
  have hd : ∀ c ∈ fractionDigits places (n % 10 ^ places), c.isDigit := fun _ => isDigit_of_mem_fractionDigits
  have hlen : (fractionDigits places (n % 10 ^ places)).length = places :=
    length_fractionDigits (Nat.mod_lt _ (Nat.pow_pos (by decide)))
  obtain ⟨_, hf⟩ := parts_join hd (n / 10 ^ places)
  refine ⟨isPlain_join hd, ?_, ?_⟩
  · rw [fixed, hf, hlen]
  · rw [fixed, point_mem_join_iff hd, ne_eq, ← List.length_eq_zero_iff, hlen]

private theorem number_fixed (places n : Nat) : number (fixed places n) = n / 10 ^ places := by
  have hrest : n % 10 ^ places < 10 ^ places := Nat.mod_lt _ (Nat.pow_pos (by decide))
  rw [fixed, number_join fun _ => isDigit_of_mem_fractionDigits, length_fractionDigits hrest,
    value_fractionDigits hrest, whole_add_fraction]

private theorem raised_eq_floor (n : Nat) {d : Nat} (hd : 0 < d) :
    (if d - n % d ≤ n % d then n / d + 1 else n / d) = ⌊(n : ℚ) / d + 1 / 2⌋₊ := by
  have hx : (n : ℚ) / d + 1 / 2 = (2 * n + d : Nat) / (2 * d : Nat) := by
    have hne : (d : ℚ) ≠ 0 := by exact_mod_cast hd.ne'
    push_cast
    field_simp
  have hsplit : 2 * n + d = 2 * d * (n / d) + (2 * (n % d) + d) := by
    have hn := Nat.div_add_mod n d
    rw [Nat.mul_assoc]
    omega
  have hlt := Nat.mod_lt n hd
  have hraise : (2 * (n % d) + d) / (2 * d) = if d - n % d ≤ n % d then 1 else 0 := by
    split
    · exact Nat.div_eq_of_lt_le (by omega) (by omega)
    · exact Nat.div_eq_of_lt (by omega)
  rw [hx, Nat.floor_div_eq_div, hsplit, Nat.mul_add_div (by omega), hraise]
  split <;> rfl

private theorem format_some_of_le (hd : decimals ≤ 77) (h : decimals ≤ places) :
    format value decimals (some places) = .ok (fixed places (value.toNat * 10 ^ (places - decimals))) := by
  obtain ⟨unit, hunit, hvalue⟩ := unit?_of_le hd
  obtain ⟨k, rfl⟩ := Nat.exists_eq_add_of_le h
  have hrest : value.toNat % 10 ^ decimals < 10 ^ decimals := Nat.mod_lt _ (Nat.pow_pos (by decide))
  have hlen : (fractionDigits decimals (value.toNat % 10 ^ decimals)).length = decimals := length_fractionDigits hrest
  have hdigits : ∀ c ∈ padRight (decimals + k) (fractionDigits decimals (value.toNat % 10 ^ decimals)), c.isDigit :=
    fun _ => Digits.isDigit_of_mem_padRight fun _ => isDigit_of_mem_fractionDigits
  have hfraction := fractionDigits_value hdigits
  rw [Digits.length_padRight (hlen.trans_le h), Digits.value_padRight, hlen, value_fractionDigits hrest,
    Nat.add_sub_cancel_left] at hfraction
  simp only [format, hunit, hvalue, if_pos h, fixed, Nat.add_sub_cancel_left]
  rw [← hfraction, Nat.pow_add, Nat.mul_div_mul_right _ _ (Nat.pow_pos (by decide)), Nat.mul_mod_mul_right,
    Nat.mul_comm (10 ^ k)]

private theorem format_some_of_lt (hd : decimals ≤ 77) (h : places < decimals) :
    format value decimals (some places) =
      .ok (fixed places ⌊(value.toNat : ℚ) / 10 ^ (decimals - places) + 1 / 2⌋₊) := by
  obtain ⟨unit, hunit, _⟩ := unit?_of_le hd
  obtain ⟨dropped, hdropped, hdvalue⟩ := unit?_of_le ((Nat.sub_le decimals places).trans hd)
  obtain ⟨kept, hkept, hkvalue⟩ := unit?_of_le (h.le.trans hd)
  have hnearest := raised_eq_floor value.toNat (Nat.pow_pos (n := decimals - places) (by decide : 0 < 10))
  rw [Nat.cast_pow, Nat.cast_ofNat] at hnearest
  simp only [format, hunit, if_neg (Nat.not_le.2 h), rounded, hdropped, hkept, Option.getD_some, hdvalue, hkvalue,
    hnearest, fixed]

private theorem abs_floor_half_sub_le {x : ℚ} (h : 0 ≤ x) : |(⌊x + 1 / 2⌋₊ : ℚ) - x| ≤ 1 / 2 := by
  have hlow := Nat.floor_le (by positivity : 0 ≤ x + 1 / 2)
  have hhigh := Nat.lt_floor_add_one (x + 1 / 2)
  rw [abs_le]
  constructor <;> linarith

private theorem abs_rounded_sub_le (n : Nat) (h : places ≤ decimals) :
    |(⌊(n : ℚ) / 10 ^ (decimals - places) + 1 / 2⌋₊ : ℚ) / 10 ^ places - n / 10 ^ decimals| ≤ 1 / 2 / 10 ^ places := by
  have hscale : (n : ℚ) / 10 ^ decimals = n / 10 ^ (decimals - places) / 10 ^ places := by
    rw [div_div, ← pow_add, Nat.sub_add_cancel h]
  rw [hscale, ← sub_div, abs_div, abs_of_pos (by positivity : (0 : ℚ) < 10 ^ places)]
  exact div_le_div_of_nonneg_right (abs_floor_half_sub_le (by positivity)) (by positivity)

/-- With a precision, up to 77 decimals, every amount is written with exactly that many fractional digits. If the
precision has room for all decimals the text denotes the amount itself, and otherwise the amount rounded half up, which
is off by at most half a unit of the last place. Both powers of ten and the raised quotient are numbers of 256 bits, so
that no power is ever taken for one. -/
theorem format_rounds_half_up (value : Uint256) {decimals : Nat} (places : Nat) (h : decimals ≤ 77) :
    ∃ text minimal, format value decimals (some places) = .ok text ∧ format value decimals none = .ok minimal ∧
      IsFixed places text ∧
      (decimals ≤ places → number text = value.toNat / 10 ^ decimals ∧ number text = number minimal) ∧
      (places < decimals →
        number text = ⌊(value.toNat : ℚ) / 10 ^ (decimals - places) + 1 / 2⌋₊ / 10 ^ places ∧
          |number text - number minimal| ≤ 1 / 2 / 10 ^ places ∧
          ∃ dropped unit, unit? (decimals - places) = some dropped ∧ dropped.toNat = 10 ^ (decimals - places) ∧
            unit? places = some unit ∧ unit.toNat = 10 ^ places ∧ value.toNat / dropped.toNat + 1 < 2 ^ 256) := by
  have hminimal := format_none value h
  rcases le_or_gt decimals places with hle | hlt
  · refine ⟨_, _, format_some_of_le h hle, hminimal, isFixed_fixed _ _, fun _ => ?_, fun hlt => by omega⟩
    have hnumber : (value.toNat * 10 ^ (places - decimals) : Nat) / 10 ^ places =
        (value.toNat : ℚ) / 10 ^ decimals := by
      obtain ⟨k, rfl⟩ := Nat.exists_eq_add_of_le hle
      rw [Nat.add_sub_cancel_left, pow_add]
      push_cast
      field_simp
    rw [number_fixed, number_shortest, hnumber]
    exact ⟨rfl, rfl⟩
  · refine ⟨_, _, format_some_of_lt h hlt, hminimal, isFixed_fixed _ _, fun hle => by omega, fun _ => ⟨?_, ?_, ?_⟩⟩
    · exact number_fixed _ _
    · rw [number_fixed, number_shortest]
      exact abs_rounded_sub_le _ hlt.le
    · obtain ⟨dropped, hdropped, hdvalue⟩ := unit?_of_le ((Nat.sub_le decimals places).trans h)
      obtain ⟨unit, hunit, huvalue⟩ := unit?_of_le (hlt.le.trans h)
      refine ⟨dropped, unit, hdropped, hdvalue, hunit, huvalue, ?_⟩
      have hten : 10 ≤ dropped.toNat := hdvalue ▸ Nat.le_self_pow (by omega) 10
      have hquot : value.toNat / dropped.toNat ≤ value.toNat / 10 := Nat.div_le_div_left hten (by decide)
      have := value.isLt
      omega

/-- A half that carries through all fractional digits into the integer part. -/
theorem format_rounds_half_up_carry :
    6 ≤ 77 ∧ ∃ minimal, format (.clamp 256 1995000) 6 (some 2) = .ok "2.00" ∧
      format (.clamp 256 1995000) 6 none = .ok minimal ∧ IsFixed 2 "2.00" ∧
      |number "2.00" - number minimal| ≤ 1 / 2 / 10 ^ 2 := by
  obtain ⟨text, minimal, htext, hminimal, hfixed, _, hround⟩ :=
    format_rounds_half_up (.clamp 256 1995000) 2 (by decide : 6 ≤ 77)
  have hcarry : format (.clamp 256 1995000) 6 (some 2) = .ok "2.00" := by decide +kernel
  obtain rfl : text = "2.00" := Except.ok.inj (htext.symm.trans hcarry)
  exact ⟨by decide, minimal, hcarry, hminimal, hfixed, (hround (by decide)).2.1⟩

end LiquidityBook.Amount
