import LiquidityBook.Decimal.Basic

/-! Reading decimals from text. Digits beyond what a decimal can hold round the last kept digit
and are otherwise only checked; an integer part that does not fit is refused. -/
namespace LiquidityBook.Decimal

/-- A number with its sign; zero has none. -/
private def signed (negative : Bool) (n : Nat) : Int := if negative then -n else n

/-- Whether a run may follow the digits that count: separators and digits only. -/
private def isTail (cs : List Char) : Bool := cs.all fun c => c.isDigit || c == '_'

/-- The digit after the last one that counts rounds it up from five. If that makes the coefficient
too long, its last digit goes, rounded half up. -/
private def roundLast (negative : Bool) (m scale : Nat) (next : Char) : Option Decimal :=
  if next.isDigit && '5' ≤ next then
    (ofParts? (signed negative (m + 1)) scale).or
      (if scale = 0 then none else ofParts? (signed negative ((m + 5) / 10)) (scale - 1))
  else ofParts? (signed negative m) scale

/-- Below this coefficient, an underscore behind the last digit that counts is like a zero. From it on
the digit behind the underscore decides. -/
def shortLimit : Nat := 10 * (2 ^ 64 / 10 - 255)

/-- Digits after the point; `seen` tells whether a digit has been read. -/
private def readFraction (negative : Bool) : (m scale : Nat) → (seen : Bool) → List Char → Option Decimal
  | m, scale, seen, [] => if seen then ofParts? (signed negative m) scale else none
  | m, scale, seen, c :: cs =>
    if c.isDigit then
      let m' := 10 * m + (c.toNat - '0'.toNat)
      if scale < 28 ∧ m' < 2 ^ 96 then readFraction negative m' (scale + 1) true cs
      else if isTail cs then roundLast negative m scale c else none
    else if c == '_' && seen then
      if scale < 28 ∨ shortLimit ≤ m then readFraction negative m scale seen cs
      else if isTail cs then ofParts? (signed negative m) scale else none
    else none

/-- Digits before the point. -/
private def readWhole (negative : Bool) : (m : Nat) → (seen : Bool) → List Char → Option Decimal
  | m, seen, [] => if seen then ofParts? (signed negative m) 0 else none
  | m, seen, c :: cs =>
    if c.isDigit then
      let m' := 10 * m + (c.toNat - '0'.toNat)
      if m' < 2 ^ 96 then readWhole negative m' true cs else none
    else if c == '.' then readFraction negative m 0 seen cs
    else if c == '_' && seen then readWhole negative m seen cs
    else none

private theorem le_ofDigitChars (ds : List Char) (m : Nat) : m ≤ Nat.ofDigitChars 10 ds m := by
  rw [Nat.ofDigitChars_eq_ofDigitChars_zero]
  exact Nat.le_trans (Nat.le_mul_of_pos_left m (Nat.pow_pos (by decide))) (Nat.le_add_right ..)

private theorem readWhole_digits (negative : Bool) {ds : List Char} (hd : ∀ c ∈ ds, c.isDigit) (rest : List Char)
    (m : Nat) (seen : Bool) (h : Nat.ofDigitChars 10 ds m < 2 ^ 96) :
    readWhole negative m seen (ds ++ rest) =
      readWhole negative (Nat.ofDigitChars 10 ds m) (seen || !ds.isEmpty) rest := by
  induction ds generalizing m seen with
  | nil => simp
  | cons c ds ih =>
    have hm : 10 * m + (c.toNat - '0'.toNat) < 2 ^ 96 := Nat.lt_of_le_of_lt (le_ofDigitChars ds _) h
    have hc := hd c (List.mem_cons_self ..)
    have hrest := ih (fun d hd' => hd d (List.mem_cons_of_mem _ hd')) _ true h
    rw [List.cons_append, readWhole, if_pos hc, if_pos hm, hrest]
    simp [Nat.ofDigitChars]

private theorem readFraction_digits (negative : Bool) {ds : List Char} (hd : ∀ c ∈ ds, c.isDigit) (m scale : Nat)
    (h : Nat.ofDigitChars 10 ds m < 2 ^ 96) (hs : scale + ds.length ≤ 28) :
    readFraction negative m scale true ds =
      ofParts? (signed negative (Nat.ofDigitChars 10 ds m)) (scale + ds.length) := by
  induction ds generalizing m scale with
  | nil => rfl
  | cons c ds ih =>
    have hm : 10 * m + (c.toNat - '0'.toNat) < 2 ^ 96 := Nat.lt_of_le_of_lt (le_ofDigitChars ds _) h
    have hc := hd c (List.mem_cons_self ..)
    rw [List.length_cons] at hs
    have hrest := ih (fun d hd' => hd d (List.mem_cons_of_mem _ hd')) _ (scale + 1) h (by omega)
    rw [readFraction, if_pos hc, if_pos ⟨by omega, hm⟩, hrest, List.length_cons, Nat.add_right_comm, Nat.add_assoc]
    rfl

/-- Plain notation: a sign, digits and at most one point, with `_` allowed after the first digit. -/
def ofPlain? : List Char → Option Decimal
  | '-' :: cs => readWhole true 0 false cs
  | '+' :: cs => readWhole false 0 false cs
  | cs => readWhole false 0 false cs

/-- An unsigned 32-bit number, with or without a plus sign. -/
private def exponent? (cs : List Char) : Option Nat := do
  let n ← Digits.readNat? cs
  if n < 2 ^ 32 then some n else none

/-- The number divided by `10 ^ e`. Digits behind the last fractional digit that there can be are
dropped, rounding half up; what is left keeps its sign, even if it is zero. -/
def divPow? (a : Decimal) (e : Nat) : Option Decimal :=
  let dropped := a.scale + e - 28
  let magnitude := if dropped = 0 then a.magnitude else (a.magnitude / 10 ^ (dropped - 1) + 5) / 10
  if h : magnitude < 2 ^ 96 then some ⟨a.negative, magnitude, min (a.scale + e) 28, h, Nat.min_le_right ..⟩
  else none

/-- Scientific notation: a power of ten, of up to 28 zeros, first uses up or lengthens the fraction,
and a whole number that it makes has no fraction left. -/
def ofScientific? (cs : List Char) : Option Decimal := do
  let isMark := fun c : Char => c == 'e' || c == 'E'
  let base ← ofPlain? (cs.takeWhile (!isMark ·))
  match cs.dropWhile (!isMark ·) with
  | [] => none
  | _ :: '-' :: ds =>
    let e ← exponent? ds
    if e ≤ 28 then base.divPow? e else none
  | _ :: ds =>
    let e ← exponent? ds
    if e ≤ base.scale then ofParts? base.coefficient (base.scale - e)
    else if e ≤ 28 then ofParts? (base.coefficient * 10 ^ (e - base.scale)) 0
    else none

def read? (s : String) : Option Decimal := (ofPlain? s.toList).or (ofScientific? s.toList)

private theorem exists_text_eq (a : Decimal) : ∃ whole fraction,
    a.text.toList = (if a.negative then ['-'] else []) ++ whole ++ (if a.scale = 0 then [] else '.' :: fraction) ∧
      whole ≠ [] ∧ (∀ c ∈ whole ++ fraction, c.isDigit) ∧ fraction.length = a.scale ∧
      Digits.value (whole ++ fraction) = a.magnitude := by
  let digits := Digits.padLeft (a.scale + 1) (Digits.ofNat a.magnitude)
  have hlen : a.scale + 1 ≤ digits.length := Digits.le_length_padLeft ..
  refine ⟨digits.take (digits.length - a.scale), digits.drop (digits.length - a.scale), ?_, ?_, ?_, ?_, ?_⟩
  · simp only [text, String.toList_ofList]
    rfl
  · rw [ne_eq, List.take_eq_nil_iff]
    rintro (h | h)
    · omega
    · simp [h] at hlen
  · intro c hc
    rw [List.take_append_drop] at hc
    exact Digits.isDigit_of_mem_padLeft (fun d hd => Digits.isDigit_of_mem_ofNat hd) hc
  · rw [List.length_drop]
    omega
  · rw [List.take_append_drop, Digits.value_padLeft, Digits.value_ofNat]

/-- The same number with the same scale, and if it is zero without a minus sign. -/
def dropZeroSign (a : Decimal) : Decimal :=
  ofCoefficient a.coefficient a.scale a.natAbs_coefficient_lt a.scale_le

private theorem ofPlain?_sign (negative : Bool) {c : Char} (hc : c.isDigit) (cs : List Char) :
    ofPlain? ((if negative then ['-'] else []) ++ c :: cs) = readWhole negative 0 false (c :: cs) := by
  cases negative with
  | true => rfl
  | false =>
    rw [if_neg Bool.false_ne_true, List.nil_append]
    unfold ofPlain?
    split
    · rename_i heq
      cases heq
      cases hc
    · rename_i heq
      cases heq
      cases hc
    · rfl

/-- A decimal is read back from its text, but for the sign of a zero. -/
theorem read?_text (a : Decimal) : read? a.text = some a.dropZeroSign := by
  obtain ⟨whole, fraction, htext, hne, hd, hlen, hv⟩ := exists_text_eq a
  have hparts : ofParts? (signed a.negative a.magnitude) a.scale = some a.dropZeroSign :=
    dif_pos ⟨a.natAbs_coefficient_lt, a.scale_le⟩
  have hvalue : Nat.ofDigitChars 10 fraction (Nat.ofDigitChars 10 whole 0) = a.magnitude := by
    rw [← Nat.ofDigitChars_append]
    exact hv
  have hwhole : Nat.ofDigitChars 10 whole 0 < 2 ^ 96 :=
    Nat.lt_of_le_of_lt (le_ofDigitChars fraction _) (hvalue ▸ a.magnitude_lt)
  have hplain : ofPlain? a.text.toList = some a.dropZeroSign := by
    obtain ⟨c, cs, hw⟩ := List.exists_cons_of_ne_nil hne
    have hc : c.isDigit := hd c (by simp [hw])
    have hseen : (false || !whole.isEmpty) = true := by simp [hw]
    rw [htext, List.append_assoc, hw, List.cons_append, ofPlain?_sign _ hc, ← List.cons_append, ← hw,
      readWhole_digits _ (fun d hd' => hd d (List.mem_append_left _ hd')) _ 0 false hwhole, hseen]
    by_cases hs : a.scale = 0
    · have hf : fraction = [] := List.eq_nil_of_length_eq_zero (hlen.trans hs)
      rw [hf, Nat.ofDigitChars_nil] at hvalue
      rw [if_pos hs, hvalue, ← hparts, hs]
      rfl
    · have hr := readFraction_digits a.negative (fun d hd' => hd d (List.mem_append_right _ hd'))
        (Nat.ofDigitChars 10 whole 0) 0 (hvalue ▸ a.magnitude_lt) (by have := a.scale_le; omega)
      rw [hvalue, Nat.zero_add, hlen, hparts] at hr
      rw [if_neg hs, readWhole, if_neg (by decide)]
      exact hr
  rw [read?, hplain]
  rfl

private theorem head?_text (a : Decimal) : a.text.toList.head? = some '-' ↔ a.negative := by
  obtain ⟨whole, fraction, htext, hne, hd, _, _⟩ := exists_text_eq a
  obtain ⟨c, cs, hw⟩ := List.exists_cons_of_ne_nil hne
  have hc : c.isDigit := hd c (by simp [hw])
  rw [htext, hw]
  cases a.negative with
  | true => simp
  | false =>
    refine iff_of_false ?_ Bool.false_ne_true
    rintro h
    cases h
    cases hc

/-- Different decimals have different texts, though one that is read back loses the sign of a zero. -/
theorem eq_of_text_eq {a b : Decimal} (h : a.text = b.text) : a = b := by
  have hr : a.dropZeroSign = b.dropZeroSign := by
    have ha := read?_text a
    rw [h, read?_text b] at ha
    exact (Option.some.inj ha).symm
  refine ext ?_ ?_ ?_
  · rw [Bool.eq_iff_iff, ← head?_text, ← head?_text, h]
  · have hm := congrArg magnitude hr
    simpa [dropZeroSign, ofCoefficient, natAbs_coefficient] using hm
  · have hs := congrArg scale hr
    exact hs

end LiquidityBook.Decimal
