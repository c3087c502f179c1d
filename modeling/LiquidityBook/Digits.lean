/-! Runs of decimal digits: their value, signs in front, and padding and trimming with zeros. -/

/- Powers mean the same whether or not a module imports a library that has powers of its own. -/
attribute [instance (high), default_instance (high + 1)] instPowNat

namespace LiquidityBook.Digits

def ofNat (n : Nat) : List Char := Nat.toDigits 10 n

/-- The number a run of digits denotes; the empty run is zero. -/
def value (digits : List Char) : Nat := Nat.ofDigitChars 10 digits 0

/-- The number written by these characters if they are digits, of which there is at least one. -/
def value? (cs : List Char) : Option Nat :=
  if cs.isEmpty || !cs.all Char.isDigit then none else some (value cs)

/-- A natural number, with or without a plus sign. -/
def readNat? : List Char → Option Nat
  | '+' :: cs => value? cs
  | cs => value? cs

def readInt? : List Char → Option Int
  | '-' :: cs => (value? cs).map fun n => -(n : Int)
  | cs => (readNat? cs).map Int.ofNat

def readInt64? (cs : List Char) : Option Int := do
  let n ← readInt? cs
  if -2 ^ 63 ≤ n ∧ n < 2 ^ 63 then some n else none

theorem value_ofNat (n : Nat) : value (ofNat n) = n := Nat.ofDigitChars_ten_toDigits

theorem ofNat_ne_nil (n : Nat) : ofNat n ≠ [] := Nat.toDigits_ne_nil

theorem isDigit_of_mem_ofNat {n : Nat} {c : Char} (h : c ∈ ofNat n) : c.isDigit :=
  Nat.isDigit_of_mem_toDigits (by decide) (by decide) h

theorem ofNat_eq_cons (n : Nat) : ∃ c cs, ofNat n = c :: cs ∧ c.isDigit := by
  cases h : ofNat n with
  | nil => exact absurd h (ofNat_ne_nil n)
  | cons c cs => exact ⟨c, cs, rfl, isDigit_of_mem_ofNat (h ▸ List.mem_cons_self ..)⟩

theorem value?_ofNat (n : Nat) : value? (ofNat n) = some n := by
  have hd : (ofNat n).all Char.isDigit := List.all_eq_true.2 fun c hc => isDigit_of_mem_ofNat hc
  rw [value?, hd, List.isEmpty_eq_false_iff.2 (ofNat_ne_nil n), value_ofNat]
  rfl

theorem readNat?_ofNat (n : Nat) : readNat? (ofNat n) = some n := by
  have hv := value?_ofNat n
  have hd : ∀ c ∈ ofNat n, c.isDigit := fun c hc => isDigit_of_mem_ofNat hc
  unfold readNat?
  split
  · rename_i cs heq
    rw [heq] at hd
    exact absurd (hd '+' (List.mem_cons_self ..)) (by decide)
  · exact hv

/-- The number of digits behind an optional plus sign, of which there is at least one. -/
def Spelled (cs : List Char) (n : Nat) : Prop :=
  ∃ digits, (cs = digits ∨ cs = '+' :: digits) ∧ digits ≠ [] ∧ (∀ c ∈ digits, c.isDigit) ∧ value digits = n

theorem value?_eq_some_iff {cs : List Char} {n : Nat} :
    value? cs = some n ↔ cs ≠ [] ∧ (∀ c ∈ cs, c.isDigit) ∧ value cs = n := by
  unfold value?
  split
  · rename_i h
    refine iff_of_false nofun ?_
    rintro ⟨hne, hd, _⟩
    rw [List.isEmpty_eq_false_iff.2 hne, List.all_eq_true.2 hd] at h
    cases h
  · rename_i h
    simp only [Bool.or_eq_true, not_or, List.isEmpty_iff, Bool.not_eq_true', Bool.not_eq_false, List.all_eq_true] at h
    rw [Option.some.injEq]
    exact ⟨fun hv => ⟨h.1, h.2, hv⟩, fun hv => hv.2.2⟩

theorem readNat?_eq_some_iff {cs : List Char} {n : Nat} : readNat? cs = some n ↔ Spelled cs n := by
  unfold readNat?
  split
  · rename_i ds
    rw [value?_eq_some_iff]
    constructor
    · intro h
      exact ⟨ds, .inr rfl, h⟩
    · rintro ⟨digits, rfl | hcs, hne, hd, hv⟩
      · exact absurd (hd '+' (List.mem_cons_self ..)) (by decide)
      · cases hcs
        exact ⟨hne, hd, hv⟩
  · rename_i hplus
    rw [value?_eq_some_iff]
    constructor
    · intro h
      exact ⟨cs, .inl rfl, h⟩
    · rintro ⟨digits, rfl | hcs, h⟩
      · exact h
      · exact absurd hcs (hplus digits)

def padLeft (width : Nat) (digits : List Char) : List Char :=
  List.replicate (width - digits.length) '0' ++ digits

def padRight (width : Nat) (digits : List Char) : List Char :=
  digits ++ List.replicate (width - digits.length) '0'

def trimTrailingZeros (digits : List Char) : List Char :=
  (digits.reverse.dropWhile (· == '0')).reverse

theorem value_append (a b : List Char) : value (a ++ b) = 10 ^ b.length * value a + value b := by
  simp only [value]
  rw [Nat.ofDigitChars_append, Nat.ofDigitChars_eq_ofDigitChars_zero]

private theorem toNat_le_of_isDigit {c : Char} (h : c.isDigit) : 48 ≤ c.toNat ∧ c.toNat ≤ 57 := by
  simpa [Char.isDigit, UInt32.le_iff_toNat_le] using h

private theorem value_singleton (c : Char) : value [c] = c.toNat - 48 := by simp [value, Nat.ofDigitChars]

theorem value_lt {digits : List Char} (h : ∀ c ∈ digits, c.isDigit) : value digits < 10 ^ digits.length := by
  induction digits with
  | nil => decide
  | cons c digits ih =>
    have hc : value [c] ≤ 9 := by
      have hd := toNat_le_of_isDigit (h c (List.mem_cons_self ..))
      rw [value_singleton]
      omega
    have ht := ih fun d hd => h d (List.mem_cons_of_mem _ hd)
    have hv : value (c :: digits) = 10 ^ digits.length * value [c] + value digits := value_append [c] digits
    have hm : 10 ^ digits.length * value [c] ≤ 10 ^ digits.length * 9 := Nat.mul_le_mul_left _ hc
    rw [hv, List.length_cons, Nat.pow_succ]
    omega

/-- Only zero itself is written with a zero in front. -/
theorem length_ofNat_of_head? {n : Nat} (h : (ofNat n).head? = some '0') : (ofNat n).length = 1 := by
  obtain ⟨ds, hds⟩ : ∃ ds, ofNat n = '0' :: ds := by
    cases hn : ofNat n with
    | nil => simp [hn] at h
    | cons c ds =>
      simp only [hn, List.head?_cons, Option.some.injEq] at h
      exact ⟨ds, by rw [h]⟩
  have hlt : n < 10 ^ ds.length := by
    have hv : value ds = n := by
      have hz : value ['0'] = 0 := rfl
      rw [← value_ofNat n, hds, ← List.singleton_append, value_append, hz, Nat.mul_zero, Nat.zero_add]
    rw [← hv]
    refine value_lt fun c hc => isDigit_of_mem_ofNat (n := n) ?_
    rw [hds]
    exact List.mem_cons_of_mem _ hc
  cases ds with
  | nil => rw [hds]; rfl
  | cons d ds =>
    have hlen := (Nat.length_toDigits_le_iff (by decide : 1 < 10) (by simp : 0 < (d :: ds).length)).2 hlt
    have := congrArg List.length hds
    simp only [ofNat, List.length_cons] at this hlen
    omega

theorem value_replicate_zero (n : Nat) : value (List.replicate n '0') = 0 := by
  simp [value]

theorem value_padLeft (width : Nat) (digits : List Char) : value (padLeft width digits) = value digits := by
  rw [padLeft, value_append, value_replicate_zero, Nat.mul_zero, Nat.zero_add]

theorem isDigit_of_mem_padLeft {width : Nat} {digits : List Char} (h : ∀ c ∈ digits, c.isDigit) {c : Char}
    (hc : c ∈ padLeft width digits) : c.isDigit := by
  rcases List.mem_append.1 hc with hc | hc
  · obtain ⟨_, rfl⟩ := List.mem_replicate.1 hc
    rfl
  · exact h c hc

theorem le_length_padLeft (width : Nat) (digits : List Char) : width ≤ (padLeft width digits).length := by
  rw [padLeft, List.length_append, List.length_replicate]
  omega

theorem isDigit_of_mem_padRight {width : Nat} {digits : List Char} (h : ∀ c ∈ digits, c.isDigit) {c : Char}
    (hc : c ∈ padRight width digits) : c.isDigit := by
  rcases List.mem_append.1 hc with hc | hc
  · exact h c hc
  · obtain ⟨_, rfl⟩ := List.mem_replicate.1 hc
    rfl

theorem length_padRight {width : Nat} {digits : List Char} (h : digits.length ≤ width) :
    (padRight width digits).length = width := by
  rw [padRight, List.length_append, List.length_replicate]
  omega

theorem value_padRight (width : Nat) (digits : List Char) :
    value (padRight width digits) = 10 ^ (width - digits.length) * value digits := by
  rw [padRight, value_append, value_replicate_zero, List.length_replicate, Nat.add_zero]

theorem value_padRight_lt {width : Nat} {digits : List Char} (h : ∀ c ∈ digits, c.isDigit)
    (hlen : digits.length ≤ width) : value (padRight width digits) < 10 ^ width := by
  have hdigits : ∀ c ∈ padRight width digits, c.isDigit := fun _ => isDigit_of_mem_padRight h
  have hv := value_lt hdigits
  rwa [length_padRight hlen] at hv

private theorem trimTrailingZeros_append (digits : List Char) :
    ∃ k, trimTrailingZeros digits ++ List.replicate k '0' = digits := by
  have hz : digits.reverse.takeWhile (· == '0') =
      List.replicate (digits.reverse.takeWhile (· == '0')).length '0' := by
    rw [List.eq_replicate_iff]
    refine ⟨rfl, fun c hc => ?_⟩
    simpa using List.all_eq_true.1 List.all_takeWhile c hc
  refine ⟨(digits.reverse.takeWhile (· == '0')).length, ?_⟩
  rw [trimTrailingZeros, ← List.reverse_replicate, ← hz, ← List.reverse_append, List.takeWhile_append_dropWhile,
    List.reverse_reverse]

theorem mem_of_mem_trimTrailingZeros {digits : List Char} {c : Char} (h : c ∈ trimTrailingZeros digits) :
    c ∈ digits := by
  obtain ⟨k, hk⟩ := trimTrailingZeros_append digits
  rw [← hk]
  exact List.mem_append_left _ h

/-- Padding puts back the zeros that were trimmed. -/
theorem padRight_trimTrailingZeros (digits : List Char) :
    padRight digits.length (trimTrailingZeros digits) = digits := by
  obtain ⟨k, hk⟩ := trimTrailingZeros_append digits
  have hlen : digits.length - (trimTrailingZeros digits).length = k := by
    have := congrArg List.length hk
    rw [List.length_append, List.length_replicate] at this
    omega
  rw [padRight, hlen, hk]

theorem getLast?_trimTrailingZeros (digits : List Char) : (trimTrailingZeros digits).getLast? ≠ some '0' := by
  intro h
  have hhead := List.head?_dropWhile_not (· == '0') digits.reverse
  rw [trimTrailingZeros, List.getLast?_reverse] at h
  rw [h] at hhead
  cases hhead

/-- Digits that do not end in zero are all that is left when zeros behind them are trimmed. -/
theorem trimTrailingZeros_padRight {digits : List Char} (h : digits.getLast? ≠ some '0') (width : Nat) :
    trimTrailingZeros (padRight width digits) = digits := by
  have hzeros : ∀ n, (List.replicate n '0' ++ digits.reverse).dropWhile (· == '0') = digits.reverse := by
    intro n
    induction n with
    | zero =>
      rw [← List.head?_reverse] at h
      cases hd : digits.reverse with
      | nil => rfl
      | cons c cs =>
        rw [hd] at h
        exact List.dropWhile_cons_of_neg (by simpa using h)
    | succ n ih => simpa [List.replicate_succ] using ih
  rw [trimTrailingZeros, padRight, List.reverse_append, List.reverse_replicate, hzeros, List.reverse_reverse]

/-- Runs of digits of one length are told apart by the numbers that they denote. -/
theorem eq_of_value_eq {a b : List Char} (ha : ∀ c ∈ a, c.isDigit) (hb : ∀ c ∈ b, c.isDigit)
    (hlen : a.length = b.length) (h : value a = value b) : a = b := by
  induction a generalizing b with
  | nil => exact (List.eq_nil_of_length_eq_zero hlen.symm).symm
  | cons c a ih =>
    obtain ⟨d, b, rfl⟩ := List.exists_cons_of_length_eq_add_one hlen.symm
    have hla : a.length = b.length := Nat.succ.inj hlen
    have hta := value_lt fun e he => ha e (List.mem_cons_of_mem _ he)
    have htb := value_lt fun e he => hb e (List.mem_cons_of_mem _ he)
    have hva : value (c :: a) = 10 ^ a.length * value [c] + value a := value_append [c] a
    have hvb : value (d :: b) = 10 ^ a.length * value [d] + value b := hla ▸ value_append [d] b
    rw [← hla] at htb
    have hpos : 0 < 10 ^ a.length := Nat.pow_pos (by decide)
    have hhead : value [c] = value [d] := by
      have hdiv := congrArg (· / 10 ^ a.length) (hva.symm.trans (h.trans hvb))
      simpa [Nat.mul_add_div hpos, Nat.div_eq_of_lt hta, Nat.div_eq_of_lt htb] using hdiv
    have htail : value a = value b := by
      rw [hva, hvb, hhead] at h
      exact Nat.add_left_cancel h
    have hcd : c = d := by
      have hc := toNat_le_of_isDigit (ha c (List.mem_cons_self ..))
      have hd := toNat_le_of_isDigit (hb d (List.mem_cons_self ..))
      rw [value_singleton, value_singleton] at hhead
      exact Char.toNat_inj.1 (by omega)
    rw [hcd, ih (fun e he => ha e (List.mem_cons_of_mem _ he)) (fun e he => hb e (List.mem_cons_of_mem _ he)) hla htail]

/-- Digits with no needless zero in front are those of the number that they denote. -/
theorem ofNat_value {digits : List Char} (h : ∀ c ∈ digits, c.isDigit) (hne : digits ≠ [])
    (hzero : digits.head? = some '0' → digits = ['0']) : ofNat (value digits) = digits := by
  have hpos : 0 < digits.length := List.length_pos_iff.2 hne
  have hle : (ofNat (value digits)).length ≤ digits.length :=
    (Nat.length_toDigits_le_iff (by decide) hpos).2 (value_lt h)
  have hpad : padLeft digits.length (ofNat (value digits)) = digits := by
    refine eq_of_value_eq (fun c hc => isDigit_of_mem_padLeft (fun d hd => isDigit_of_mem_ofNat hd) hc) h ?_ ?_
    · rw [padLeft, List.length_append, List.length_replicate]
      omega
    · rw [value_padLeft, value_ofNat]
  rw [padLeft] at hpad
  cases hk : digits.length - (ofNat (value digits)).length with
  | zero => rwa [hk] at hpad
  | succ k =>
    rw [hk, List.replicate_succ, List.cons_append] at hpad
    have hone := congrArg List.length (hzero (by rw [← hpad]; rfl))
    have hsome := List.length_pos_iff.2 (ofNat_ne_nil (value digits))
    rw [List.length_singleton] at hone
    omega

end LiquidityBook.Digits
