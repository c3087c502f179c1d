import LiquidityBook.Amount
import Mathlib.Algebra.Order.Field.Rat
import Mathlib.Algebra.Order.Floor.Semifield
import Mathlib.Data.List.TakeWhile
import Mathlib.Data.Rat.Floor
import Mathlib.Tactic.FieldSimp

/-! Which texts are amounts and what they amount to. A text of digits around at most one point denotes a rational,
and its machine amount is that rational in machine units, rounded down. -/
namespace LiquidityBook.Amount
open Digits (padRight)

/-- The number that a text of digits, of which there is at least one, denotes with at most one point. -/
inductive Denotes (text : String) : ℚ → Prop where
  | whole {whole} (hd : ∀ c ∈ whole, c.isDigit) (hne : whole ≠ []) (ht : text.toList = whole) :
      Denotes text (Digits.value whole)
  | point {whole fraction} (hd : ∀ c ∈ whole ++ fraction, c.isDigit) (hne : whole ++ fraction ≠ [])
      (ht : text.toList = whole ++ '.' :: fraction) :
      Denotes text (Digits.value whole + Digits.value fraction / 10 ^ fraction.length)

/-- The number of machine units that a text stands for. There is one where the human unit is of at most 77 decimals
and the number is of 256 bits. -/
structure Machine (text : String) (decimals machine : Nat) : Prop where
  decimals_le : decimals ≤ 77
  lt : machine < 2 ^ 256
  floor : ∃ x, Denotes text x ∧ machine = ⌊x * 10 ^ decimals⌋₊

variable {text : String} {cs whole fraction : List Char} {decimals : Nat}

/-- A text is taken apart exactly if it is made of digits around at most one point. -/
theorem parts?_eq_some_iff : parts? cs = some (whole, fraction) ↔
    (∀ c ∈ whole ++ fraction, c.isDigit) ∧ whole ++ fraction ≠ [] ∧
      ((cs = whole ∧ fraction = []) ∨ cs = whole ++ '.' :: fraction) := by
  constructor
  · intro h
    simp only [parts?] at h
    split at h
    · rename_i hall
      obtain ⟨rfl, rfl⟩ := Prod.mk.inj (Option.some.inj h)
      simp only [Bool.and_eq_true, List.all_eq_true, Bool.not_eq_true', Bool.and_eq_false_iff,
        List.isEmpty_eq_false_iff] at hall
      obtain ⟨⟨hw, hf⟩, hne⟩ := hall
      refine ⟨?_, ?_, ?_⟩
      · intro c hc
        exact (List.mem_append.1 hc).elim (hw c) (hf c)
      · rw [ne_eq, List.append_eq_nil_iff]
        rintro ⟨hw0, hf0⟩
        exact hne.elim (absurd hw0) (absurd hf0)
      · have hsplit := List.takeWhile_append_dropWhile (p := (· != '.')) (l := cs)
        have hhead := List.head?_dropWhile_not (· != '.') cs
        cases hdrop : cs.dropWhile (· != '.') with
        | nil =>
          rw [hdrop, List.append_nil] at hsplit
          exact .inl ⟨hsplit.symm, rfl⟩
        | cons c rest =>
          rw [hdrop] at hsplit hhead
          have hc : c = '.' := by simpa using hhead
          exact .inr (hc ▸ hsplit.symm)
    · cases h
  · rintro ⟨hd, hne, hcs⟩
    have hw : ∀ c ∈ whole, (c != '.') = true := by
      intro c hc
      refine bne_iff_ne.2 ?_
      rintro rfl
      exact absurd (hd '.' (List.mem_append_left _ hc)) (by decide)
    have hcond :
        (whole.all Char.isDigit && fraction.all Char.isDigit && !(whole.isEmpty && fraction.isEmpty)) = true := by
      have hall : (whole ++ fraction).all Char.isDigit = true := List.all_eq_true.2 hd
      rw [List.all_append] at hall
      simpa [hall, ← not_and_or] using hne
    rcases hcs with ⟨rfl, rfl⟩ | rfl
    · have ht : cs.takeWhile (· != '.') = cs := List.takeWhile_eq_self_iff.2 hw
      have hr : cs.dropWhile (· != '.') = [] := List.dropWhile_eq_nil_iff.2 hw
      simp only [parts?, ht, hr, List.drop_nil]
      exact if_pos hcond
    · have ht : (whole ++ '.' :: fraction).takeWhile (· != '.') = whole := by
        rw [List.takeWhile_append_of_pos hw]
        simp
      have hr : (whole ++ '.' :: fraction).dropWhile (· != '.') = '.' :: fraction := by
        rw [List.dropWhile_append_of_pos hw]
        simp
      simp only [parts?, ht, hr, List.drop_succ_cons, List.drop_zero]
      exact if_pos hcond

/-- What a text denotes is read off its two parts. -/
theorem denotes_iff {x : ℚ} : Denotes text x ↔ ∃ whole fraction, parts? text.toList = some (whole, fraction) ∧
    x = Digits.value whole + Digits.value fraction / 10 ^ fraction.length := by
  constructor
  · intro h
    cases h with
    | whole hd hne ht =>
      exact ⟨_, [], parts?_eq_some_iff.2 ⟨by simpa using hd, by simpa using hne, .inl ⟨ht, rfl⟩⟩,
        by simp [Digits.value]⟩
    | point hd hne ht => exact ⟨_, _, parts?_eq_some_iff.2 ⟨hd, hne, .inr ht⟩, rfl⟩
  · rintro ⟨whole, fraction, hp, rfl⟩
    obtain ⟨hd, hne, ⟨ht, rfl⟩ | ht⟩ := parts?_eq_some_iff.1 hp
    · have hw : Denotes text (Digits.value whole) := .whole (by simpa using hd) (by simpa using hne) ht
      simpa [Digits.value] using hw
    · exact .point hd hne ht

private theorem value_kept (h : ∀ c ∈ fraction, c.isDigit) (decimals : Nat) :
    Digits.value (padRight decimals (fraction.take decimals)) =
      Digits.value fraction * 10 ^ decimals / 10 ^ fraction.length := by
  rcases Nat.le_total fraction.length decimals with hle | hle
  · obtain ⟨k, rfl⟩ := Nat.exists_eq_add_of_le hle
    rw [List.take_of_length_le hle, Digits.value_padRight, Nat.add_sub_cancel_left, Nat.pow_add,
      Nat.mul_comm (10 ^ fraction.length), ← Nat.mul_assoc, Nat.mul_div_cancel _ (Nat.pow_pos (by decide)),
      Nat.mul_comm]
  · obtain ⟨k, hk⟩ := Nat.exists_eq_add_of_le hle
    have hlen : (fraction.take decimals).length = decimals := List.length_take_of_le hle
    have hrest : (fraction.drop decimals).length = k := by
      rw [List.length_drop]
      omega
    have hsplit : Digits.value fraction =
        10 ^ k * Digits.value (fraction.take decimals) + Digits.value (fraction.drop decimals) := by
      rw [← hrest, ← Digits.value_append, List.take_append_drop]
    have hlt : Digits.value (fraction.drop decimals) < 10 ^ k :=
      hrest ▸ Digits.value_lt fun c hc => h c (List.mem_of_mem_drop hc)
    rw [Digits.value_padRight, hlen, Nat.sub_self, Nat.pow_zero, Nat.one_mul, hk, Nat.pow_add,
      Nat.mul_comm (10 ^ decimals), Nat.mul_div_mul_right _ _ (Nat.pow_pos (by decide)), hsplit,
      Nat.mul_add_div (Nat.pow_pos (by decide)), Nat.div_eq_of_lt hlt, Nat.add_zero]

theorem unit_fits_iff : 10 ^ decimals < 2 ^ 256 ↔ decimals ≤ 77 := by
  constructor
  · intro h
    by_contra hd
    have hle : 10 ^ 78 ≤ 10 ^ decimals := Nat.pow_le_pow_right (by decide) (by omega)
    exact absurd (hle.trans_lt h) (by decide)
  · intro h
    exact (Nat.pow_le_pow_right (by decide) h).trans_lt (by decide)

theorem unit?_eq_none_iff : unit? decimals = none ↔ 77 < decimals := by
  rw [unit?, Uint.ofNat?_eq_none_iff, ← Nat.not_lt, unit_fits_iff, Nat.not_le]

theorem unit?_of_le (h : decimals ≤ 77) : ∃ unit, unit? decimals = some unit ∧ unit.toNat = 10 ^ decimals :=
  ⟨⟨10 ^ decimals, unit_fits_iff.2 h⟩, dif_pos (unit_fits_iff.2 h), rfl⟩

private theorem head?_ne_of_parts? {parts : List Char × List Char} (h : parts? cs = some parts) :
    cs.head? ≠ some '-' := by
  obtain ⟨hd, hne, hcs⟩ := parts?_eq_some_iff.1 h
  have hminus : ∀ c ∈ parts.1 ++ parts.2, c ≠ '-' := by
    rintro c hc rfl
    exact absurd (hd '-' hc) (by decide)
  rcases hcs with ⟨rfl, hf⟩ | rfl
  · intro hh
    exact hminus '-' (List.mem_append_left _ (List.mem_of_mem_head? hh)) rfl
  · cases hw : parts.1 with
    | nil => simp
    | cons c rest =>
      have hc := hminus c (by simp [hw])
      simpa using hc

private theorem ofDigits?_of_forall_isDigit {digits : List Char} (h : ∀ c ∈ digits, c.isDigit) :
    ofDigits? digits = Uint.ofNat? 256 (Digits.value digits) := by
  rw [ofDigits?, if_pos (List.all_eq_true.2 h)]

/-- What is kept of a fraction is read where the human unit is a number of 256 bits: it is a smaller number. -/
theorem ofDigits?_kept (h : ∀ c ∈ fraction, c.isDigit) (hunit : 10 ^ decimals < 2 ^ 256) :
    ∃ rest, ofDigits? (padRight decimals (fraction.take decimals)) = some rest ∧
      rest.toNat = Digits.value (padRight decimals (fraction.take decimals)) := by
  have hdigits : ∀ c ∈ padRight decimals (fraction.take decimals), c.isDigit :=
    fun _ => Digits.isDigit_of_mem_padRight fun c hc => h c (List.mem_of_mem_take hc)
  have hlt : Digits.value (padRight decimals (fraction.take decimals)) < 10 ^ decimals :=
    Digits.value_padRight_lt (fun c hc => h c (List.mem_of_mem_take hc)) (List.length_take_le ..)
  refine ⟨⟨_, hlt.trans hunit⟩, ?_, rfl⟩
  rw [ofDigits?_of_forall_isDigit hdigits]
  exact dif_pos (hlt.trans hunit)

/-- Reading an amount succeeds exactly where it can be taken apart and both the human unit and the machine amount
are numbers of 256 bits. -/
theorem toMachine_eq_ok_iff_parts {m : Uint256} : toMachine text decimals = .ok m ↔
    10 ^ decimals < 2 ^ 256 ∧ ∃ whole fraction, parts? text.toList = some (whole, fraction) ∧
      m.toNat = Digits.value whole * 10 ^ decimals + Digits.value (padRight decimals (fraction.take decimals)) := by
  constructor
  · intro h
    simp only [toMachine] at h
    split at h
    · cases h
    split at h
    · cases h
    rename_i whole fraction hp
    have hdigits := (parts?_eq_some_iff.1 hp).1
    rw [ofDigits?_of_forall_isDigit fun c hc => hdigits c (List.mem_append_left _ hc)] at h
    split at h
    · cases h
    rename_i unit hu
    have hunit := Uint.toNat_of_ofNat? hu
    obtain ⟨rest, hrest, hvalue⟩ := ofDigits?_kept (fun c hc => hdigits c (List.mem_append_right _ hc))
        (hunit ▸ unit.isLt)
    split at h
    · cases h
    rename_i units hw
    split at h
    · cases h
    rename_i scaled hs
    split at h
    · cases h
    rename_i machine hm
    cases h
    refine ⟨hunit ▸ unit.isLt, whole, fraction, hp, ?_⟩
    rw [Uint.toNat_of_ofNat? hm, Uint.toNat_of_ofNat? hs, Uint.toNat_of_ofNat? hw, hunit, hrest,
      Option.getD_some, hvalue]
  · rintro ⟨hunit, whole, fraction, hp, hm⟩
    have hdigits := (parts?_eq_some_iff.1 hp).1
    obtain ⟨rest, hrest, hvalue⟩ := ofDigits?_kept (fun c hc => hdigits c (List.mem_append_right _ hc)) hunit
    have hunit? : unit? decimals = some ⟨10 ^ decimals, hunit⟩ := dif_pos hunit
    have hscaled : Digits.value whole * 10 ^ decimals < 2 ^ 256 := by
      have := m.isLt
      omega
    have hwhole : Digits.value whole < 2 ^ 256 :=
      (Nat.le_mul_of_pos_right _ (Nat.pow_pos (by decide))).trans_lt hscaled
    have hwhole? : ofDigits? whole = some ⟨Digits.value whole, hwhole⟩ := by
      rw [ofDigits?_of_forall_isDigit fun c hc => hdigits c (List.mem_append_left _ hc)]
      exact dif_pos hwhole
    have hscaled? : Uint.ofNat? 256 (Digits.value whole * 10 ^ decimals) = some ⟨_, hscaled⟩ := dif_pos hscaled
    simp only [toMachine, if_neg (head?_ne_of_parts? hp), hp, hunit?, hwhole?, hscaled?, hrest, Option.getD_some,
      hvalue, ← hm, Uint.ofNat?_toNat]

private theorem floor_parts (h : ∀ c ∈ fraction, c.isDigit) :
    ⌊((Digits.value whole : ℚ) + Digits.value fraction / 10 ^ fraction.length) * 10 ^ decimals⌋₊ =
      Digits.value whole * 10 ^ decimals + Digits.value (padRight decimals (fraction.take decimals)) := by
  have hpos : 0 < 10 ^ fraction.length := Nat.pow_pos (by decide)
  have hx : ((Digits.value whole : ℚ) + Digits.value fraction / 10 ^ fraction.length) * 10 ^ decimals =
      ((10 ^ fraction.length * (Digits.value whole * 10 ^ decimals) +
          Digits.value fraction * 10 ^ decimals : Nat) : ℚ) /
        (10 ^ fraction.length : Nat) := by
    push_cast
    field_simp
  rw [hx, Nat.floor_div_eq_div, Nat.mul_add_div hpos, value_kept h]

/-- Reading an amount gives the number that it denotes in machine units, rounded down, wherever there is one. -/
theorem toMachine_eq_ok_iff {m : Uint256} : toMachine text decimals = .ok m ↔ Machine text decimals m.toNat := by
  rw [toMachine_eq_ok_iff_parts, unit_fits_iff]
  constructor
  · rintro ⟨hd, whole, fraction, hp, hm⟩
    have hdigits := (parts?_eq_some_iff.1 hp).1
    refine ⟨hd, m.isLt, _, denotes_iff.2 ⟨whole, fraction, hp, rfl⟩, ?_⟩
    rw [hm, floor_parts fun c hc => hdigits c (List.mem_append_right _ hc)]
  · rintro ⟨hd, _, x, hx, hm⟩
    obtain ⟨whole, fraction, hp, rfl⟩ := denotes_iff.1 hx
    have hdigits := (parts?_eq_some_iff.1 hp).1
    refine ⟨hd, whole, fraction, hp, ?_⟩
    rw [hm, floor_parts fun c hc => hdigits c (List.mem_append_right _ hc)]

theorem exists_toMachine_iff : (∃ m, toMachine text decimals = .ok m) ↔ ∃ n, Machine text decimals n := by
  constructor
  · rintro ⟨m, h⟩
    exact ⟨m.toNat, toMachine_eq_ok_iff.1 h⟩
  · rintro ⟨n, h⟩
    exact ⟨⟨n, h.lt⟩, toMachine_eq_ok_iff.2 h⟩

/-- A text that is no amount is reported as it is. -/
theorem invalidAmount_of_toMachine {e : Error} (h : toMachine text decimals = .error e) :
    ∃ fault, e = .invalidAmount text fault := by
  simp only [toMachine] at h
  split at h
  · exact ⟨_, (Except.error.inj h).symm⟩
  split at h
  · exact ⟨_, (Except.error.inj h).symm⟩
  split at h
  · exact ⟨_, (Except.error.inj h).symm⟩
  split at h
  · exact ⟨_, (Except.error.inj h).symm⟩
  split at h
  · exact ⟨_, (Except.error.inj h).symm⟩
  split at h
  · exact ⟨_, (Except.error.inj h).symm⟩
  · cases h

end LiquidityBook.Amount
