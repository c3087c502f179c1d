import LiquidityBook.Proofs.Amount.Grammar

/-! Machine amounts written in human units in full and read back: every amount that has a text comes back as it was,
and the errors tell why another has none. -/
namespace LiquidityBook.Amount
open Digits (ofNat padRight trimTrailingZeros)

/-- Why a machine amount has no human text. -/
inductive Unreadable (amount : String) (decimals : Nat) : Error → Prop where
  | notInteger (h : Digits.value? amount.toList = none) :
      Unreadable amount decimals (.invalidAmount amount .notInteger)
  | overlong {n} (h : Digits.value? amount.toList = some n) (hn : 2 ^ 256 ≤ n) :
      Unreadable amount decimals (.invalidAmount amount .overflow)
  | unscaled {value : Uint256} (h : Digits.value? amount.toList = some value.toNat) (hd : 77 < decimals) :
      Unreadable amount decimals (.invalidAmount value.text (.scaleOverflow decimals))

variable {places decimals n whole : Nat} {fraction : List Char}

theorem length_fractionDigits (h : n < 10 ^ places) : (fractionDigits places n).length = places := by
  rw [fractionDigits]
  split
  · symm
    assumption
  · have hle : (ofNat n).length ≤ places := (Nat.length_toDigits_le_iff (by decide) (by omega)).2 h
    rw [Digits.padLeft, List.length_append, List.length_replicate]
    omega

theorem value_fractionDigits (h : n < 10 ^ places) : Digits.value (fractionDigits places n) = n := by
  rw [fractionDigits]
  split
  · rename_i hz
    rw [hz] at h
    have hn : n = 0 := by omega
    rw [hn]
    rfl
  · rw [Digits.value_padLeft, Digits.value_ofNat]

theorem isDigit_of_mem_fractionDigits {c : Char} (h : c ∈ fractionDigits places n) : c.isDigit := by
  rw [fractionDigits] at h
  split at h
  · cases h
  · rcases List.mem_append.1 h with h | h
    · rw [List.eq_of_mem_replicate h]
      decide
    · exact Digits.isDigit_of_mem_ofNat h

/-- Any run of digits is the fraction of its value. -/
theorem fractionDigits_value (h : ∀ c ∈ fraction, c.isDigit) :
    fractionDigits fraction.length (Digits.value fraction) = fraction := by
  have hlt := Digits.value_lt h
  exact Digits.eq_of_value_eq (fun _ => isDigit_of_mem_fractionDigits) h (length_fractionDigits hlt)
    (value_fractionDigits hlt)

theorem toList_join : (join whole fraction).toList =
    ofNat whole ++ if fraction.isEmpty then [] else '.' :: fraction := String.toList_ofList

theorem parts?_join (h : ∀ c ∈ fraction, c.isDigit) :
    parts? (join whole fraction).toList = some (ofNat whole, fraction) := by
  refine parts?_eq_some_iff.2 ⟨?_, ?_, ?_⟩
  · intro c hc
    exact (List.mem_append.1 hc).elim Digits.isDigit_of_mem_ofNat (h c)
  · exact fun hnil => Digits.ofNat_ne_nil whole (List.append_eq_nil_iff.1 hnil).1
  · rw [toList_join]
    cases fraction with
    | nil => exact .inl ⟨List.append_nil _, rfl⟩
    | cons c cs => exact .inr rfl

private theorem toMachine_join (h : ∀ c ∈ fraction, c.isDigit) (hlen : fraction.length ≤ decimals) {value : Uint256}
    (hunit : 10 ^ decimals < 2 ^ 256)
    (hv : whole * 10 ^ decimals + Digits.value (padRight decimals fraction) = value.toNat) :
    toMachine (join whole fraction) decimals = .ok value := by
  refine toMachine_eq_ok_iff_parts.2 ⟨hunit, ofNat whole, fraction, parts?_join h, ?_⟩
  rw [Digits.value_ofNat, List.take_of_length_le hlen, hv]

/-- An amount can be written where its human unit is a number of 256 bits. -/
theorem unit_lt_of_toMachine {amount : String} {value : Uint256} (h : toMachine amount decimals = .ok value) :
    10 ^ decimals < 2 ^ 256 := (toMachine_eq_ok_iff_parts.1 h).1

/-- The text of `n / 10 ^ decimals` in as few digits as there can be. -/
def shortest (decimals n : Nat) : String :=
  join (n / 10 ^ decimals) (trimTrailingZeros (fractionDigits decimals (n % 10 ^ decimals)))

theorem format_none (value : Uint256) (h : decimals ≤ 77) :
    format value decimals none = .ok (shortest decimals value.toNat) := by
  obtain ⟨unit, hunit, hvalue⟩ := unit?_of_le h
  simp only [format, hunit, hvalue, shortest]

theorem padRight_trimmed (h : n < 10 ^ decimals) :
    padRight decimals (trimTrailingZeros (fractionDigits decimals n)) = fractionDigits decimals n := by
  have hpad := Digits.padRight_trimTrailingZeros (fractionDigits decimals n)
  rwa [length_fractionDigits h] at hpad

theorem length_trimmed_le (h : n < 10 ^ decimals) :
    (trimTrailingZeros (fractionDigits decimals n)).length ≤ decimals := by
  have hlen := congrArg List.length (padRight_trimmed h)
  rw [length_fractionDigits h, padRight, List.length_append] at hlen
  omega

/-- The shortest text of an amount is read as that amount and no other. -/
theorem toMachine_shortest (value : Uint256) (hunit : 10 ^ decimals < 2 ^ 256) :
    toMachine (shortest decimals value.toNat) decimals = .ok value := by
  have hrest : value.toNat % 10 ^ decimals < 10 ^ decimals := Nat.mod_lt _ (Nat.pow_pos (by decide))
  refine toMachine_join (fun c hc => ?_) (length_trimmed_le hrest) hunit ?_
  · exact isDigit_of_mem_fractionDigits (Digits.mem_of_mem_trimTrailingZeros hc)
  · rw [padRight_trimmed hrest, value_fractionDigits hrest]
    exact Nat.div_add_mod' value.toNat (10 ^ decimals)

/-- The full human text of an amount is the text of that amount and no other. -/
theorem toMachine_format (value : Uint256) (hunit : 10 ^ decimals < 2 ^ 256) :
    ∃ text, format value decimals none = .ok text ∧ toMachine text decimals = .ok value :=
  ⟨_, format_none value (unit_fits_iff.1 hunit), toMachine_shortest value hunit⟩

theorem toHuman_text (value : Uint256) (decimals : Nat) (precision : Option Nat) :
    toHuman value.text decimals precision = format value decimals precision := by
  simp only [toHuman, Uint.value?_text, Uint.ofNat?_toNat]

/-- A scale that fits is all that a machine amount needs to be written. -/
theorem format_eq_error_iff {value : Uint256} {precision : Option Nat} {e : Error} :
    format value decimals precision = .error e ↔
      77 < decimals ∧ e = .invalidAmount value.text (.scaleOverflow decimals) := by
  rw [← unit?_eq_none_iff]
  unfold format
  cases unit? decimals with
  | none => simp [eq_comm]
  | some unit =>
    cases precision with
    | none => simp
    | some places => simp only [reduceCtorEq, false_and, iff_false]; split <;> nofun

theorem toHuman_eq_error_iff {amount : String} {precision : Option Nat} {e : Error} :
    toHuman amount decimals precision = .error e ↔ Unreadable amount decimals e := by
  constructor
  · intro h
    unfold toHuman at h
    cases hv : Digits.value? amount.toList with
    | none =>
      simp only [hv] at h
      cases h
      exact .notInteger hv
    | some n =>
      cases hn : Uint.ofNat? 256 n with
      | none =>
        simp only [hv, hn] at h
        cases h
        exact .overlong hv (Uint.ofNat?_eq_none_iff.1 hn)
      | some value =>
        simp only [hv, hn] at h
        obtain ⟨hd, rfl⟩ := format_eq_error_iff.1 h
        exact .unscaled (by rw [hv, Uint.toNat_of_ofNat? hn]) hd
  · intro h
    cases h with
    | notInteger h => simp only [toHuman, h]
    | overlong h hn => simp only [toHuman, h, Uint.ofNat?_eq_none_iff.2 hn]
    | unscaled h hd =>
      simp only [toHuman, h, Uint.ofNat?_toNat]
      exact format_eq_error_iff.2 ⟨hd, rfl⟩

/-- Beyond 77 decimals no amount is written, whatever else may be wrong with it. -/
theorem exists_invalidAmount_of_toHuman (h : 77 < decimals) (amount : String) (precision : Option Nat) :
    ∃ input fault, toHuman amount decimals precision = .error (.invalidAmount input fault) := by
  cases hr : toHuman amount decimals precision with
  | error e =>
    cases toHuman_eq_error_iff.1 hr with
    | notInteger => exact ⟨_, _, rfl⟩
    | overlong => exact ⟨_, _, rfl⟩
    | unscaled => exact ⟨_, _, rfl⟩
  | ok text =>
    unfold toHuman at hr
    split at hr
    · cases hr
    split at hr
    · cases hr
    · rw [format_eq_error_iff.2 ⟨h, rfl⟩] at hr
      cases hr

end LiquidityBook.Amount
