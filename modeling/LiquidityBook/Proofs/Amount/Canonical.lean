import LiquidityBook.Proofs.Amount.RoundTrip
import LiquidityBook.Proofs.Amount.Truncation

/-! Canonical amounts. Exactly one numeral of a number has no digit that could be left out. A machine amount is
written as the canonical numeral of its number, and whatever numeral of that number was read, this is how it prints. -/
namespace LiquidityBook.Amount
open Digits (ofNat padRight trimTrailingZeros)

def wholePart (text : String) : List Char := text.toList.takeWhile (· != '.')

def fractionPart (text : String) : List Char := (text.toList.dropWhile (· != '.')).drop 1

/-- A numeral with a digit in front of its point and without a zero there that could be left out. -/
structure IsPlain (text : String) : Prop where
  numeral : IsNumeral text
  whole : wholePart text ≠ []
  leading : (wholePart text).head? = some '0' → wholePart text = ['0']

/-- A plain numeral that does not end in a point or in a zero behind it. -/
structure IsCanonical (text : String) : Prop extends IsPlain text where
  point : '.' ∈ text.toList → fractionPart text ≠ []
  trailing : (fractionPart text).getLast? ≠ some '0'

/-- The canonical numeral of the number that a text denotes. -/
structure IsCanonicalForm (text form : String) : Prop where
  canonical : IsCanonical form
  number : number form = number text

/-- No digit but zero stands beyond the decimals. -/
def IsExact (text : String) (decimals : Nat) : Prop := ∀ c ∈ (fractionPart text).drop decimals, c = '0'

variable {text : String} {cs digits fraction : List Char} {whole width decimals n : Nat}

private theorem parts?_of_isNumeral (h : IsNumeral text) :
    parts? text.toList = some (wholePart text, fractionPart text) := by
  obtain ⟨whole, fraction, hp⟩ := isNumeral_iff.1 h
  have hparts := hp
  simp only [parts?] at hparts
  split at hparts
  · obtain ⟨hw, hf⟩ := Prod.mk.inj (Option.some.inj hparts)
    rw [hp, wholePart, fractionPart, hw, hf]
  · cases hparts

private theorem isDigit_of_mem_wholePart (h : IsNumeral text) {c : Char} (hc : c ∈ wholePart text) : c.isDigit :=
  (parts?_eq_some_iff.1 (parts?_of_isNumeral h)).1 c (List.mem_append_left _ hc)

private theorem isDigit_of_mem_fractionPart (h : IsNumeral text) {c : Char} (hc : c ∈ fractionPart text) : c.isDigit :=
  (parts?_eq_some_iff.1 (parts?_of_isNumeral h)).1 c (List.mem_append_right _ hc)

private theorem value_padRight_div (h : digits.length ≤ width) :
    (Digits.value (padRight width digits) : ℚ) / 10 ^ width = Digits.value digits / 10 ^ digits.length := by
  obtain ⟨k, rfl⟩ := Nat.exists_eq_add_of_le h
  rw [Digits.value_padRight, Nat.add_sub_cancel_left, pow_add]
  push_cast
  field_simp

section Join
variable (hd : ∀ c ∈ fraction, c.isDigit)
include hd

private theorem isNumeral_join : IsNumeral (join whole fraction) := isNumeral_iff.2 ⟨_, _, parts?_join hd⟩

theorem parts_join (whole : Nat) :
    wholePart (join whole fraction) = ofNat whole ∧ fractionPart (join whole fraction) = fraction := by
  have hp : parts? (join whole fraction).toList = some (ofNat whole, fraction) := parts?_join hd
  rw [parts?_of_isNumeral (isNumeral_join hd)] at hp
  exact Prod.mk.inj (Option.some.inj hp)

theorem isPlain_join : IsPlain (join whole fraction) := by
  obtain ⟨hw, _⟩ := parts_join hd whole
  refine ⟨isNumeral_join hd, hw ▸ Digits.ofNat_ne_nil whole, fun h => ?_⟩
  rw [hw] at h ⊢
  obtain ⟨c, hc⟩ := List.length_eq_one_iff.1 (Digits.length_ofNat_of_head? h)
  rw [hc] at h ⊢
  exact congrArg (fun d => [d]) (Option.some.inj h)

theorem point_mem_join_iff : '.' ∈ (join whole fraction).toList ↔ fraction ≠ [] := by
  rw [toList_join]
  cases fraction with
  | nil =>
    refine iff_of_false (fun h => ?_) (fun h => h rfl)
    have hdigit := Digits.isDigit_of_mem_ofNat (n := whole) (by simpa using h)
    exact absurd hdigit (by decide)
  | cons c cs => simp

theorem number_join : number (join whole fraction) = whole + Digits.value fraction / 10 ^ fraction.length := by
  rw [number_of_parts? (parts?_join hd), Digits.value_ofNat]

end Join

private theorem IsPlain.eq_join (h : IsPlain text) (hpoint : '.' ∈ text.toList → fractionPart text ≠ []) :
    text = join (Digits.value (wholePart text)) (fractionPart text) := by
  have hw := Digits.ofNat_value (fun _ => isDigit_of_mem_wholePart h.numeral) h.whole h.leading
  apply String.toList_inj.1
  rw [toList_join, hw]
  rcases (parts?_eq_some_iff.1 (parts?_of_isNumeral h.numeral)).2.2 with ⟨ht, hf⟩ | ht
  · rw [hf, List.isEmpty_nil, if_pos rfl, List.append_nil, ← ht]
  · have hmem : '.' ∈ text.toList := ht ▸ List.mem_append_right _ (List.mem_cons_self ..)
    rw [List.isEmpty_eq_false_iff.2 (hpoint hmem), if_neg Bool.false_ne_true, ← ht]

private theorem isDigit_of_mem_trimmed {c : Char} (h : c ∈ trimTrailingZeros (fractionDigits decimals n)) : c.isDigit :=
  isDigit_of_mem_fractionDigits (Digits.mem_of_mem_trimTrailingZeros h)

private theorem isCanonical_shortest (decimals n : Nat) : IsCanonical (shortest decimals n) := by
  have hd : ∀ c ∈ trimTrailingZeros (fractionDigits decimals (n % 10 ^ decimals)), c.isDigit :=
    fun _ => isDigit_of_mem_trimmed
  obtain ⟨_, hf⟩ := parts_join hd (n / 10 ^ decimals)
  refine ⟨isPlain_join hd, fun hp => ?_, ?_⟩
  · rw [shortest, hf]
    exact (point_mem_join_iff hd).1 hp
  · rw [shortest, hf]
    exact Digits.getLast?_trimTrailingZeros _

theorem whole_add_fraction (n decimals : Nat) :
    ((n / 10 ^ decimals : Nat) : ℚ) + (n % 10 ^ decimals : Nat) / 10 ^ decimals = n / 10 ^ decimals := by
  have hn : (n : ℚ) = 10 ^ decimals * (n / 10 ^ decimals : Nat) + (n % 10 ^ decimals : Nat) := by
    exact_mod_cast (Nat.div_add_mod n (10 ^ decimals)).symm
  conv_rhs => rw [hn]
  field_simp

theorem number_shortest (decimals n : Nat) : number (shortest decimals n) = n / 10 ^ decimals := by
  have hrest : n % 10 ^ decimals < 10 ^ decimals := Nat.mod_lt _ (Nat.pow_pos (by decide))
  rw [shortest, number_join fun _ => isDigit_of_mem_trimmed, ← value_padRight_div (length_trimmed_le hrest),
    padRight_trimmed hrest, value_fractionDigits hrest, whole_add_fraction]

/-- What is read of a text whose digits beyond the decimals are zeros is the number that it denotes. -/
theorem number_of_isExact (h : IsNumeral text) (hx : IsExact text decimals) :
    number text = (Digits.value (wholePart text) * 10 ^ decimals +
      Digits.value (padRight decimals ((fractionPart text).take decimals)) : Nat) / 10 ^ decimals := by
  generalize hkept : (fractionPart text).take decimals = kept
  have hlen : kept.length ≤ decimals := hkept ▸ List.length_take_le ..
  have hle : kept.length ≤ (fractionPart text).length := hkept ▸ List.length_take_le' ..
  have hpad : padRight (fractionPart text).length kept = fractionPart text := by
    have hzeros := List.eq_replicate_iff.2 ⟨rfl, hx⟩
    rw [List.length_drop] at hzeros
    have hsplit := List.take_append_drop decimals (fractionPart text)
    rw [hzeros, hkept] at hsplit
    have hk : (fractionPart text).length - kept.length = (fractionPart text).length - decimals := by
      rw [← hkept, List.length_take]
      omega
    rw [padRight, hk, hsplit]
  have hvalue := value_padRight_div hle
  rw [hpad, ← value_padRight_div hlen] at hvalue
  rw [number_of_parts? (parts?_of_isNumeral h), hvalue]
  push_cast
  field_simp

private theorem isExact_of_length_le (h : (fractionPart text).length ≤ decimals) : IsExact text decimals := by
  intro c hc
  rw [List.drop_eq_nil_of_le h] at hc
  cases hc

private theorem IsCanonical.eq_shortest (h : IsCanonical text) (hle : (fractionPart text).length ≤ decimals)
    (hn : number text = n / 10 ^ decimals) : text = shortest decimals n := by
  have hdigit : ∀ c ∈ fractionPart text, c.isDigit := fun _ => isDigit_of_mem_fractionPart h.numeral
  have hlt := Digits.value_padRight_lt hdigit hle
  have hvalue : n = Digits.value (wholePart text) * 10 ^ decimals +
      Digits.value (padRight decimals (fractionPart text)) := by
    rw [number_of_isExact h.numeral (isExact_of_length_le hle), List.take_of_length_le hle,
      div_left_inj' (by positivity)] at hn
    exact_mod_cast hn.symm
  have hwhole : n / 10 ^ decimals = Digits.value (wholePart text) := by
    rw [hvalue, Nat.mul_comm, Nat.mul_add_div (Nat.pow_pos (by decide)), Nat.div_eq_of_lt hlt, Nat.add_zero]
  have hrest : fractionDigits decimals (n % 10 ^ decimals) = padRight decimals (fractionPart text) := by
    have hpad : ∀ c ∈ padRight decimals (fractionPart text), c.isDigit :=
      fun _ => Digits.isDigit_of_mem_padRight hdigit
    have hself := fractionDigits_value hpad
    rw [Digits.length_padRight hle] at hself
    rw [hvalue, Nat.mul_comm, Nat.mul_add_mod, Nat.mod_eq_of_lt hlt, hself]
  rw [shortest, hwhole, hrest, Digits.trimTrailingZeros_padRight h.trailing]
  exact h.eq_join h.point

theorem IsCanonical.eq_of_number_eq {a b : String} (ha : IsCanonical a) (hb : IsCanonical b)
    (h : number a = number b) : a = b := by
  have hn := number_of_isExact ha.numeral
    (isExact_of_length_le (Nat.le_max_left (fractionPart a).length (fractionPart b).length))
  rw [ha.eq_shortest (Nat.le_max_left ..) hn, ← hb.eq_shortest (Nat.le_max_right ..) (h ▸ hn)]

section Reading
variable {m : Uint256} (h : toMachine text decimals = .ok m)
include h

private theorem toHuman_of_toMachine : toHuman m.text decimals none = .ok (shortest decimals m.toNat) := by
  rw [toHuman_text, format_none m (unit_fits_iff.1 (unit_lt_of_toMachine h))]

private theorem isCanonicalForm_of_toMachine (hx : IsExact text decimals) :
    IsCanonicalForm text (shortest decimals m.toNat) := by
  obtain ⟨_, whole, fraction, hp, hm⟩ := toMachine_eq_ok_iff_parts.1 h
  have hnumeral := isNumeral_iff.2 ⟨_, _, hp⟩
  obtain ⟨rfl, rfl⟩ := Prod.mk.inj (Option.some.inj ((parts?_of_isNumeral hnumeral).symm.trans hp))
  refine ⟨isCanonical_shortest _ _, ?_⟩
  rw [number_shortest, number_of_isExact hnumeral hx, hm]

end Reading

/-- Up to 77 decimals, every machine amount is written as a canonical numeral of its number that is read back as the
amount. Every accepted text whose digits beyond the decimals are zeros prints as its one canonical form, so that
accepted texts print alike exactly if they are read alike. Beyond 77 decimals nothing is written. -/
theorem canonical_round_trip (decimals : Nat) :
    (decimals ≤ 77 → ∀ value, ∃ text, format value decimals none = .ok text ∧ IsCanonical text ∧
        number text = value.toNat / 10 ^ decimals ∧ toMachine text decimals = .ok value) ∧
      (∀ text m, toMachine text decimals = .ok m → IsExact text decimals →
        ∃ form, toHuman m.text decimals none = .ok form ∧ IsCanonicalForm text form ∧
          ∀ other, IsCanonicalForm text other → other = form) ∧
      (∀ s t m n, toMachine s decimals = .ok m → toMachine t decimals = .ok n →
        (toHuman m.text decimals none = toHuman n.text decimals none ↔ m = n)) ∧
      (77 < decimals → ∀ precision,
        (∀ value, ∃ fault, format value decimals precision = .error (.invalidAmount value.text fault)) ∧
          ∀ amount, ∃ input fault, toHuman amount decimals precision = .error (.invalidAmount input fault)) := by
  refine ⟨?_, ?_, ?_, ?_⟩
  · intro hd value
    exact ⟨_, format_none value hd, isCanonical_shortest _ _, number_shortest _ _,
      toMachine_shortest value (unit_fits_iff.2 hd)⟩
  · intro text m h hx
    have hform := isCanonicalForm_of_toMachine h hx
    refine ⟨_, toHuman_of_toMachine h, hform, ?_⟩
    intro other ho
    exact ho.canonical.eq_of_number_eq hform.canonical (ho.number.trans hform.number.symm)
  · intro s t m n hs ht
    rw [toHuman_of_toMachine hs, toHuman_of_toMachine ht, Except.ok.injEq]
    constructor
    · intro heq
      have hm := toMachine_shortest m (unit_lt_of_toMachine hs)
      rw [heq, toMachine_shortest n (unit_lt_of_toMachine ht)] at hm
      exact (Except.ok.inj hm).symm
    · exact fun heq => heq ▸ rfl
  · intro hd precision
    constructor
    · intro value
      exact ⟨_, format_eq_error_iff.2 ⟨hd, rfl⟩⟩
    · intro amount
      exact exists_invalidAmount_of_toHuman hd amount precision

/-- Far more digits than a double or a decimal holds. -/
example : toHuman "31869459388831189549983844374029232670507008000" 18 none =
    .ok "31869459388831189549983844374.029232670507008" := by decide +kernel

end LiquidityBook.Amount
