import LiquidityBook.Proofs.Decimal.Places
import LiquidityBook.Proofs.Distribution.Scale
import Mathlib.Data.BitVec

/-! Weights to integers and back. An integer gets its weight and its text back unchanged; a weight loses what stands
behind its eighteenth fractional digit. Neither way rounds, and each fails on its own bounds only. -/
namespace LiquidityBook.Distribution
open Decimal

private theorem one_lt : one < 2 ^ 96 := by decide

private theorem zero_le_maxScale : 0 ≤ 28 := by decide

/-- The share one as a decimal, by which weights are multiplied. -/
def grid : Decimal := ⟨false, one, 0, one_lt, zero_le_maxScale⟩

/-- The integer of a weight by the steps of decimal arithmetic: a product, its whole part, and the check of its
width. -/
def scaled? (w : Decimal) : Option Uint128 := (w.mul? grid).bind (toUint? 128)

/-- The weight of an integer by steps: the integer is cast to a signed one of 128 bits, taken as a coefficient with 18
fractional digits, and the decimal shortened. -/
def unscaled? (v : Uint128) : Option Decimal := (ofParts? (BitVec.ofNat 128 v.toNat).toInt 18).map Decimal.normalize

/-- The text behind zeros, with or without a plus sign in front of them. -/
def leading (plus : Bool) (zeros : Nat) (text : String) : String :=
  String.ofList ((if plus then ['+'] else []) ++ (List.replicate zeros '0' ++ text.toList))

/-- This is the weight of the integer, which comes back from it and has it in each of its texts. -/
structure Carries (v : Uint128) (w : Decimal) : Prop where
  made : toWeight v.toNat = .ok w
  steps : unscaled? v = some w
  number : w.toRat = v.toNat / 10 ^ 18
  lowest : ∀ d : Decimal, d.toRat = w.toRat → w.scale ≤ d.scale
  back : ofWeight w = .ok v.toNat
  texts : ∀ plus zeros, read (leading plus zeros v.text) = .ok w

/-- This is the integer of the weight, and the one that comes back is the weight cut off behind 18 fractional digits. -/
structure CutOff (w : Decimal) (v : Uint128) (back : Decimal) : Prop where
  made : ofWeight w = .ok v.toNat
  steps : scaled? w = some v
  floor : v.toNat = ⌊w.toRat * 10 ^ 18⌋₊
  le_one : v.toNat ≤ 10 ^ 18
  returned : toWeight v.toNat = .ok back
  below : back.toRat ≤ w.toRat
  near : w.toRat - back.toRat < 1 / 10 ^ 18
  exact_iff : back.toRat = w.toRat ↔ ∀ i, 18 < i → w.fractionDigit i = 0

variable {v : Uint128} {w : Decimal} {text : String}

private theorem integer?_eq_some_iff : integer? text = some v ↔ Digits.Spelled text.toList v.toNat := by
  rw [integer?, Option.bind_eq_some_iff]
  constructor
  · rintro ⟨n, hn, hv⟩
    exact Uint.toNat_of_ofNat? hv ▸ Digits.readNat?_eq_some_iff.1 hn
  · intro h
    exact ⟨v.toNat, Digits.readNat?_eq_some_iff.2 h, Uint.ofNat?_toNat v⟩

private theorem spelled_leading (v : Uint128) (plus : Bool) (zeros : Nat) :
    Digits.Spelled (leading plus zeros v.text).toList v.toNat := by
  have htext : v.text.toList = Digits.ofNat v.toNat := Nat.toList_repr ..
  refine ⟨List.replicate zeros '0' ++ v.text.toList, ?_, ?_, ?_, ?_⟩
  · cases plus
    · exact .inl (String.toList_ofList ..)
    · exact .inr (String.toList_ofList ..)
  · rw [htext]
    exact List.append_ne_nil_of_right_ne_nil _ (Digits.ofNat_ne_nil _)
  · intro c hc
    rw [htext] at hc
    rcases List.mem_append.1 hc with hc | hc
    · obtain ⟨_, rfl⟩ := List.mem_replicate.1 hc
      rfl
    · exact Digits.isDigit_of_mem_ofNat hc
  · rw [htext, Digits.value_append, Digits.value_replicate_zero, Nat.mul_zero, Nat.zero_add, Digits.value_ofNat]

private theorem read_of_spelled (h : Digits.Spelled text.toList v.toNat) : read text = toWeight v.toNat := by
  rw [read, integer?_eq_some_iff.2 h]

/-- An integer up to one is far from the sign bit, so that its cast is the integer itself. -/
private theorem unscaled?_eq (h : v.toNat ≤ one) : ∃ w, toWeight v.toNat = .ok w ∧ unscaled? v = some w := by
  have hbits : (BitVec.ofNat 128 v.toNat).toNat = v.toNat := by rw [BitVec.toNat_ofNat, Nat.mod_eq_of_lt v.isLt]
  have hcast : (BitVec.ofNat 128 v.toNat).toInt = v.toNat := by
    rw [BitVec.toInt_eq_toNat_of_lt, hbits]
    rw [hbits]
    simp only [one] at h
    omega
  have hlt : v.toNat < 2 ^ 96 := h.trans_lt one_lt
  refine ⟨_, dif_pos h, ?_⟩
  rw [unscaled?, hcast, ofParts?, dif_pos ⟨by simpa using hlt, by decide⟩, Option.map_some]
  congr 2

private theorem carries (h : v.toNat ≤ one) : ∃ w, Carries v w := by
  obtain ⟨w, hmade, hsteps⟩ := unscaled?_eq h
  obtain ⟨w', hmade', hnumber, hunit, hunits⟩ := toWeight_spec h
  obtain rfl : w = w' := by
    rw [hmade] at hmade'
    exact Except.ok.inj hmade'
  have hlowest : ∀ d : Decimal, d.toRat = w.toRat → w.scale ≤ d.scale := by
    obtain ⟨a, rfl⟩ : ∃ a : Decimal, w = a.normalize := by
      rw [toWeight, dif_pos h] at hmade
      exact ⟨_, (Except.ok.inj hmade).symm⟩
    intro d hd
    exact scale_normalize_le (hd.trans (toRat_normalize a))
  have hback : ofWeight w = .ok v.toNat := by rw [ofWeight_of_inUnit hunit, hunits]
  have hone : (one : ℚ) = 10 ^ 18 := by norm_num [one]
  exact ⟨w, hmade, hsteps, hone ▸ hnumber, hlowest, hback,
    fun plus zeros => (read_of_spelled (spelled_leading v plus zeros)).trans hmade⟩

/-- The integer of a weight is the whole part of the product with one. -/
theorem units_eq_floor (h : 0 ≤ w.toRat) : units w = ⌊w.toRat * one⌋₊ := by
  symm
  rw [Nat.floor_eq_iff (mul_nonneg h (Nat.cast_nonneg _))]
  exact ⟨units_le_toRat h, toRat_lt_units h⟩

private theorem units_le_one (h : 0 ≤ w.toRat) (h1 : w.toRat ≤ 1) : units w ≤ one := by
  have hle : (units w : ℚ) ≤ one := (units_le_toRat h).trans (mul_le_of_le_one_left (Nat.cast_nonneg _) h1)
  exact_mod_cast hle

private theorem scaled?_eq (h : 0 ≤ w.toRat) (h1 : w.toRat ≤ 1) : ∃ v, scaled? w = some v ∧ v.toNat = units w := by
  have hgrid : grid.coefficient = (10 ^ 18 : Nat) := rfl
  obtain ⟨d, hmul, hd⟩ := exists_mul?_pow (by decide) rfl hgrid h h1
  have hd0 : 0 ≤ d.toRat := hd ▸ by positivity
  have hfloor : d.coefficient.toNat / 10 ^ d.scale = units w := by
    rw [← floor_toRat hd0, hd, units_eq_floor h]
    norm_num [one]
  have hlt : units w < 2 ^ 128 := (units_le_one h h1).trans_lt (by decide)
  refine ⟨⟨units w, hlt⟩, ?_, rfl⟩
  rw [scaled?, hmul, Option.bind_some, toUint?, if_pos (toRat_nonneg_iff.1 hd0), hfloor]
  exact dif_pos hlt

private theorem units_eq_toRat_iff (h : 0 ≤ w.toRat) :
    (units w : ℚ) = w.toRat * one ↔ ∀ i, 18 < i → w.fractionDigit i = 0 := by
  have hm : w.coefficient.toNat = w.magnitude := by rw [coefficient_of_nonneg h, Int.toNat_natCast]
  have hpos : (0 : ℚ) < 10 ^ w.scale := by positivity
  have hdvd : (units w : ℚ) = w.toRat * one ↔ 10 ^ w.scale ∣ w.magnitude * one := by
    rw [toRat_mul_one h, eq_div_iff hpos.ne', units, hm]
    constructor
    · intro heq
      have hcut : w.magnitude * one / 10 ^ w.scale * 10 ^ w.scale = w.magnitude * one := by exact_mod_cast heq
      exact hcut ▸ Nat.dvd_mul_left ..
    · intro hd
      exact_mod_cast Nat.div_mul_cancel hd
  rw [hdvd, fractionDigits_eq_zero_iff, one]
  rcases Nat.le_total w.scale 18 with hle | hle
  · rw [Nat.sub_eq_zero_of_le hle, pow_zero]
    exact iff_of_true ((pow_dvd_pow 10 hle).mul_left _) (one_dvd _)
  · obtain ⟨k, hk⟩ := Nat.exists_eq_add_of_le' hle
    rw [hk, Nat.add_sub_cancel, pow_add]
    exact Nat.mul_dvd_mul_iff_right (by positivity)

private theorem cutOff (h : 0 ≤ w.toRat) (h1 : w.toRat ≤ 1) : ∃ v back, CutOff w v back := by
  have hone : (one : ℚ) = 10 ^ 18 := by norm_num [one]
  have hpos : (0 : ℚ) < one := by rw [hone]; positivity
  obtain ⟨v, hsteps, hv⟩ := scaled?_eq h h1
  have hle : v.toNat ≤ one := hv ▸ units_le_one h h1
  obtain ⟨back, hback⟩ := carries hle
  have hr : back.toRat = units w / one := by rw [hback.number, hone, hv]
  refine ⟨v, back, hv ▸ ofWeight_of_inUnit (inUnit_iff.2 ⟨h, h1⟩), hsteps, ?_, hle, hback.made, ?_, ?_, ?_⟩
  · rw [hv, units_eq_floor h, hone]
  · rw [hr, div_le_iff₀ hpos]
    exact units_le_toRat h
  · rw [hr, ← hone, sub_lt_iff_lt_add, ← add_div, lt_div_iff₀ hpos, add_comm]
    exact toRat_lt_units h
  · rw [hr, div_eq_iff hpos.ne']
    exact units_eq_toRat_iff h

private theorem units_mono {a b : Decimal} (h : 0 ≤ a.toRat) (hle : a.toRat ≤ b.toRat) : units a ≤ units b := by
  rw [units_eq_floor h, units_eq_floor (h.trans hle)]
  exact Nat.floor_mono (mul_le_mul_of_nonneg_right hle (Nat.cast_nonneg _))

private theorem ofWeight_eq_ok_iff {n : Nat} : ofWeight w = .ok n ↔ (0 ≤ w.toRat ∧ w.toRat ≤ 1) ∧ units w = n := by
  rw [ofWeight, ← inUnit_iff]
  split <;> simp [*, units]

private theorem ofWeight_eq_error_iff {e : Error} :
    ofWeight w = .error e ↔ ¬ (0 ≤ w.toRat ∧ w.toRat ≤ 1) ∧ e = .schemaViolation (.weightOutsideUnit w) := by
  rw [ofWeight, ← inUnit_iff]
  split <;> simp [*, eq_comm]

private theorem toWeight_eq_error_iff {n : Nat} {e : Error} :
    toWeight n = .error e ↔ one < n ∧ e = .schemaViolation (.distributionAboveOne n) := by
  unfold toWeight
  split
  · exact iff_of_false (by simp) (by omega)
  · rename_i h
    rw [Except.error.injEq]
    exact ⟨fun he => ⟨Nat.lt_of_not_le h, he.symm⟩, fun he => he.2.symm⟩

/-- A text fails that is not an unsigned integer of 128 bits, or is one above the share one. -/
theorem read_eq_error_iff {e : Error} : read text = .error e ↔
    ((∀ v : Uint128, ¬ Digits.Spelled text.toList v.toNat) ∧ e = .schemaViolation (.distributionNotInteger text)) ∨
      ∃ v : Uint128, Digits.Spelled text.toList v.toNat ∧ one < v.toNat ∧
        e = .schemaViolation (.distributionAboveOne v.toNat) := by
  simp only [← integer?_eq_some_iff, read]
  cases integer? text with
  | none => simp [eq_comm]
  | some v => simp [toWeight_eq_error_iff]

/-- Integers up to one and weights of the unit interval go both ways: the integer comes back unchanged from its weight
and its texts, the weight cut off behind its eighteenth digit. The order is kept, and what fails lies outside. -/
theorem scale_round_trip :
    (∀ v : Uint128, v.toNat ≤ one → ∃ w, Carries v w) ∧
    (∀ w : Decimal, 0 ≤ w.toRat → w.toRat ≤ 1 → ∃ v back, CutOff w v back) ∧
    (∀ a b m n, ofWeight a = .ok m → ofWeight b = .ok n → a.toRat ≤ b.toRat → m ≤ n) ∧
    (∀ w e, ofWeight w = .error e ↔
      ¬ (0 ≤ w.toRat ∧ w.toRat ≤ 1) ∧ e = .schemaViolation (.weightOutsideUnit w)) ∧
    (∀ n e, toWeight n = .error e ↔ one < n ∧ e = .schemaViolation (.distributionAboveOne n)) ∧
    ∀ text e, read text = .error e ↔
      ((∀ v : Uint128, ¬ Digits.Spelled text.toList v.toNat) ∧ e = .schemaViolation (.distributionNotInteger text)) ∨
        ∃ v : Uint128, Digits.Spelled text.toList v.toNat ∧ one < v.toNat ∧
          e = .schemaViolation (.distributionAboveOne v.toNat) := by
  refine ⟨fun v h => carries h, fun w h h1 => cutOff h h1, ?_, fun w e => ofWeight_eq_error_iff,
    fun n e => toWeight_eq_error_iff, fun text e => read_eq_error_iff⟩
  intro a b m n ha hb hle
  obtain ⟨⟨ha0, _⟩, rfl⟩ := ofWeight_eq_ok_iff.1 ha
  obtain ⟨_, rfl⟩ := ofWeight_eq_ok_iff.1 hb
  exact units_mono ha0 hle

/-- A share of an eleventh to six digits, and a weight whose last digit is the nineteenth. -/
theorem scale_round_trip_nineteen_digits :
    (∃ v : Uint128, v.text = "181818000000000000" ∧ ∃ w, Carries v w) ∧
    ∃ tiny : Decimal, tiny.text = "0.0000000000000000019" ∧ (∃ v back, CutOff tiny v back) ∧
      ofWeight tiny = .ok 1 ∧ ofWeight Decimal.one = .ok one ∧ 1 ≤ one := by
  obtain ⟨hcarries, hcut, hmono, _⟩ := scale_round_trip
  obtain ⟨v, htext, hv⟩ : ∃ v : Uint128, v.text = "181818000000000000" ∧ v.toNat ≤ one :=
    ⟨.clamp 128 181818000000000000, by decide +kernel⟩
  obtain ⟨tiny, hdigits, hunit, hle, hweight⟩ : ∃ tiny : Decimal, tiny.text = "0.0000000000000000019" ∧
      tiny.inUnit ∧ tiny.le Decimal.one ∧ ofWeight tiny = .ok 1 :=
    ⟨⟨false, 19, 19, by decide, by decide⟩, by decide +kernel⟩
  obtain ⟨h0, h1⟩ := inUnit_iff.1 hunit
  have hone : ofWeight Decimal.one = .ok one := by decide +kernel
  exact ⟨⟨v, htext, hcarries v hv⟩, tiny, hdigits, hcut tiny h0 h1, hweight, hone,
    hmono tiny Decimal.one 1 one hweight hone (le_iff.1 hle)⟩

end LiquidityBook.Distribution
