import LiquidityBook.Json.Plain
import LiquidityBook.Json.Reader
import LiquidityBook.Json.Writer

/-! The text of a plain value is read back as that value. -/
namespace LiquidityBook.Json

/-- The text ends, or an item, a member or the closing of an array or an object follows. -/
def Ends (rest : List Char) : Prop := ∀ c ∈ rest.head?, c = ',' ∨ c = ']' ∨ c = '\x7d'

private theorem ends_cons {c : Char} {rest : List Char} (h : c = ',' ∨ c = ']' ∨ c = '\x7d') : Ends (c :: rest) := by
  intro d hd
  cases hd
  exact h

private theorem Ends.not_digit {c : Char} {rest : List Char} (h : Ends (c :: rest)) :
    c.isDigit = false ∧ c ≠ '.' ∧ c ≠ 'e' ∧ c ≠ 'E' := by
  rcases h c rfl with rfl | rfl | rfl <;> decide

section Text

private theorem pieces_lettered {c : Char} (h : Lettered c) (cs : List Char) :
    pieces (escape c ++ cs) = (pieces cs).map fun r => (.char c :: r.1, r.2) := by
  rcases h with rfl | rfl | rfl | rfl | rfl | rfl | rfl
  all_goals
    simp only [escape]
    cases hcs : pieces cs <;> simp [pieces, hcs]

private theorem pieces_control {n : Nat} (h : n < 0x20) (cs : List Char) :
    pieces ('\\' :: 'u' :: '0' :: '0' :: Nat.digitChar (n / 16) :: Nat.digitChar (n % 16) :: cs) =
      (pieces cs).map fun r => (.unit n :: r.1, r.2) := by
  have hv : ∀ m : Fin 32, Hex.value? ['0', '0', Nat.digitChar (m / 16), Nat.digitChar (m % 16)] = some m.val := by
    decide
  have hn : Hex.value? ['0', '0', Nat.digitChar (n / 16), Nat.digitChar (n % 16)] = some n := hv ⟨n, h⟩
  simp only [pieces, hn]
  cases pieces cs <;> rfl

private theorem pieces_plain {c : Char} (h : ¬ c.toNat < 0x20) (hl : ¬ Lettered c) (cs : List Char) :
    pieces (c :: cs) = (pieces cs).map fun r => (.char c :: r.1, r.2) := by
  simp only [Lettered, not_or] at hl
  cases hcs : pieces cs <;> simp [pieces, hcs, h, hl]

private theorem pieces_escape (c : Char) : ∃ p,
    (∀ cs, pieces (escape c ++ cs) = (pieces cs).map fun r => (p :: r.1, r.2)) ∧
      ∀ ps, Piece.join (p :: ps) = (Piece.join ps).map (c :: ·) := by
  by_cases hl : Lettered c
  · exact ⟨.char c, pieces_lettered hl, fun ps => rfl⟩
  by_cases hc : c.toNat < 0x20
  · refine ⟨.unit c.toNat, fun cs => ?_, fun ps => ?_⟩
    · rw [escape_of_not_lettered hl, if_pos hc]
      exact pieces_control hc cs
    · have hd : c.toNat < 0xd800 ∨ 0xe000 ≤ c.toNat := .inl (Nat.lt_trans hc (by decide))
      rw [Piece.join.eq_def]
      simp only [if_pos hd, Char.ofNat_toNat]
  · refine ⟨.char c, fun cs => ?_, fun ps => rfl⟩
    rw [escape_of_not_lettered hl, if_neg hc]
    exact pieces_plain hc hl cs

private theorem readText_quote (s : String) (rest : List Char) :
    readText (s.toList.flatMap escape ++ '"' :: rest) = some (some s, rest) := by
  have hp : ∀ cs : List Char, ∃ ps, pieces (cs.flatMap escape ++ '"' :: rest) = some (ps, rest) ∧
      Piece.join ps = some cs := by
    intro cs
    induction cs with
    | nil => exact ⟨[], rfl, rfl⟩
    | cons c cs ih =>
      obtain ⟨ps, hps, hjoin⟩ := ih
      obtain ⟨p, hp, hj⟩ := pieces_escape c
      refine ⟨p :: ps, ?_, ?_⟩
      · rw [List.flatMap_cons, List.append_assoc, hp, hps]
        rfl
      · rw [hj, hjoin]
        rfl
  obtain ⟨ps, hps, hjoin⟩ := hp s.toList
  simp [readText, hps, hjoin]

end Text

section Number

private theorem readDigits_ofNat (n : Nat) {rest : List Char} (h : Ends rest) :
    readDigits (Digits.ofNat n ++ rest) = some (Digits.ofNat n, rest) := by
  have hd : ∀ c ∈ Digits.ofNat n, c.isDigit := fun c hc => Digits.isDigit_of_mem_ofNat hc
  have htake : rest.takeWhile Char.isDigit = [] ∧ rest.dropWhile Char.isDigit = rest := by
    cases rest with
    | nil => exact ⟨rfl, rfl⟩
    | cons c rest => simp [h.not_digit.1]
  simp [readDigits, List.takeWhile_append_of_pos hd, List.dropWhile_append_of_pos hd, htake, Digits.ofNat_ne_nil]

private theorem readNumber_ofNat (negative : Bool) (n : Nat) {rest : List Char} (h : Ends rest)
    (hn : negative = true → n ≠ 0) : readNumber negative (Digits.ofNat n ++ rest) =
      some (.integer (if negative then -n else n), rest) := by
  have hlead : ¬ ((Digits.ofNat n).head? = some '0' ∧ (Digits.ofNat n).length ≠ 1) :=
    fun hz => hz.2 (Digits.length_ofNat_of_head? hz.1)
  have hzero : (negative && n == 0) = false := by
    cases negative with
    | false => rfl
    | true => simpa using hn rfl
  simp only [readNumber, readDigits_ofNat n h, Option.bind_eq_bind, Option.bind_some, if_neg hlead, Digits.value_ofNat,
    Option.pure_def]
  cases rest with
  | nil => simp [hzero]
  | cons c cs =>
    obtain ⟨_, hp, he, hE⟩ := h.not_digit
    split
    · rename_i heq
      cases heq
      exact absurd rfl hp
    · simp [hzero, he, hE]

end Number

section Value

private theorem ne_of_isDigit {c d : Char} (hc : c.isDigit) (hd : d.isDigit = false) : c ≠ d := by
  rintro rfl
  cases hc.symm.trans hd

private theorem isBlank_of_isDigit {c : Char} (hc : c.isDigit) : isBlank c = false := by
  simp [isBlank, ne_of_isDigit hc (d := ' ') rfl, ne_of_isDigit hc (d := '\n') rfl, ne_of_isDigit hc (d := '\t') rfl,
    ne_of_isDigit hc (d := '\r') rfl]

private theorem chars_int_of_neg {n : Int} (h : n < 0) : chars (int n) = '-' :: Digits.ofNat n.natAbs := by
  simp [int, chars, Number.chars, h]

private theorem chars_int_of_nonneg {n : Int} (h : 0 ≤ n) : chars (int n) = Digits.ofNat n.natAbs := by
  simp [int, chars, Number.chars, Int.not_lt.2 h]

private theorem skip_cons {c : Char} (h : isBlank c = false) (cs : List Char) : skip (c :: cs) = c :: cs := by
  simp [skip, h]

private theorem chars_eq_cons {j : Json} (h : Plain j) : ∃ c cs, chars j = c :: cs ∧ isBlank c = false ∧ c ≠ ']' := by
  cases h with
  | int n =>
    rcases Int.lt_or_le n 0 with hn | hn
    · exact ⟨'-', _, chars_int_of_neg hn, rfl, by decide⟩
    · obtain ⟨c, cs, hcs, hc⟩ := Digits.ofNat_eq_cons n.natAbs
      exact ⟨c, cs, (chars_int_of_nonneg hn).trans hcs, isBlank_of_isDigit hc, ne_of_isDigit hc rfl⟩
  | bool b => cases b <;> exact ⟨_, _, rfl, rfl, by decide⟩
  | _ => exact ⟨_, _, rfl, rfl, by decide⟩

private theorem readValue_digit {c : Char} (hc : c.isDigit) (fuel : Nat) (cs : List Char) :
    readValue (fuel + 1) (c :: cs) = (readNumber false (c :: cs)).map fun (n, rest) => (number n, rest) := by
  rw [readValue, skip_cons (isBlank_of_isDigit hc)]
  split
  all_goals
    rename_i heq
    first
    | rfl
    | (cases heq; cases hc)

private theorem readValue_int (n : Int) (fuel : Nat) {rest : List Char} (h : Ends rest) :
    readValue (fuel + 1) (chars (int n) ++ rest) = some (int n, rest) := by
  rcases Int.lt_or_le n 0 with hn | hn
  · have hr := readNumber_ofNat true n.natAbs h (by omega)
    have hv : -(n.natAbs : Int) = n := by omega
    rw [chars_int_of_neg hn]
    simp only [if_true, hv] at hr
    simp [readValue, skip_cons, isBlank, hr, int]
  · obtain ⟨c, cs, hcs, hc⟩ := Digits.ofNat_eq_cons n.natAbs
    have hr := readNumber_ofNat false n.natAbs h nofun
    have hv : (n.natAbs : Int) = n := by omega
    rw [hcs, List.cons_append, if_neg Bool.false_ne_true, hv] at hr
    rw [chars_int_of_nonneg hn, hcs, List.cons_append, readValue_digit hc, hr]
    rfl

/-- The value is read back wherever its text stands. Each value and each member takes a character at least, so the
length of the text is fuel enough. -/
def ReadBack (j : Json) : Prop :=
  ∀ fuel rest, (chars j).length ≤ fuel → Ends rest → readValue fuel (chars j ++ rest) = some (j, rest)

private theorem readItems_itemChars {items : List Json} (hne : items ≠ []) (h : ∀ j ∈ items, ReadBack j) :
    ∀ fuel rest, (itemChars items).length ≤ fuel → readItems fuel (itemChars items ++ rest) = some (items, rest) := by
  induction items with
  | nil => exact absurd rfl hne
  | cons j items ih =>
    intro fuel rest hf
    have hj := h j (List.mem_cons_self ..)
    cases fuel with
    | zero => cases items <;> simp [itemChars] at hf
    | succ fuel =>
      cases items with
      | nil =>
        have hr := hj fuel (']' :: rest) (by simpa [itemChars] using hf) (ends_cons (.inr (.inl rfl)))
        simp [itemChars, readItems, hr, skip_cons, isBlank]
      | cons i items =>
        have hlen : (chars j).length + (itemChars (i :: items)).length ≤ fuel := by
          simp only [itemChars_cons, List.length_append, List.length_cons] at hf
          omega
        have hr := hj fuel (',' :: (itemChars (i :: items) ++ rest)) (by omega) (ends_cons (.inl rfl))
        have hrest := ih (by simp) (fun k hk => h k (List.mem_cons_of_mem _ hk)) fuel rest (by omega)
        simp [itemChars_cons, readItems, hr, hrest, skip_cons, isBlank]

/-- The members of a record as an object has them. -/
def keyed (members : List (String × Json)) : List (Option String × Json) := members.map fun (k, v) => (some k, v)

private theorem skip_quote (k : String) (cs : List Char) :
    skip (quote k ++ cs) = '"' :: (k.toList.flatMap escape ++ '"' :: cs) := by
  simp [quote, skip_cons, isBlank]

private theorem readMembers_memberChars {members : List (String × Json)} (hne : members ≠ [])
    (h : ∀ m ∈ members, ReadBack m.2) : ∀ fuel rest, (memberChars (keyed members)).length ≤ fuel →
      readMembers fuel (memberChars (keyed members) ++ rest) = some (keyed members, rest) := by
  induction members with
  | nil => exact absurd rfl hne
  | cons m members ih =>
    obtain ⟨k, j⟩ := m
    intro fuel rest hf
    have hj : ReadBack j := h (k, j) (List.mem_cons_self ..)
    cases fuel with
    | zero => cases members <;> simp [keyed, memberChars] at hf
    | succ fuel =>
      cases members with
      | nil =>
        have hchars : memberChars (keyed [(k, j)]) = quote k ++ ':' :: chars j ++ ['\x7d'] := memberChars_singleton k j
        have hlen : (chars j).length ≤ fuel := by
          simp only [hchars, List.length_append, List.length_cons] at hf
          omega
        have hr := hj fuel ('\x7d' :: rest) hlen (ends_cons (.inr (.inr rfl)))
        rw [hchars]
        simp [keyed, readMembers, skip_quote, readText_quote, hr, skip_cons, isBlank]
      | cons i members =>
        have hcons : keyed ((k, j) :: i :: members) = (some k, j) :: keyed (i :: members) := rfl
        have hchars : memberChars (keyed ((k, j) :: i :: members)) =
            quote k ++ ':' :: chars j ++ ',' :: memberChars (keyed (i :: members)) := memberChars_cons ..
        have hlen : (chars j).length + (memberChars (keyed (i :: members))).length ≤ fuel := by
          simp only [hchars, List.length_append, List.length_cons] at hf
          omega
        have hr := hj fuel (',' :: (memberChars (keyed (i :: members)) ++ rest)) (by omega) (ends_cons (.inl rfl))
        have hrest := ih (by simp) (fun m hm => h m (List.mem_cons_of_mem _ hm)) fuel rest (by omega)
        rw [hchars, hcons]
        simp [readMembers, skip_quote, readText_quote, hr, hrest, skip_cons, isBlank]

/-- As the text of a value is not empty, there is fuel for the value itself. -/
private theorem readBack_of_succ {j : Json} (hj : Plain j) (h : ∀ fuel rest, (chars j).length ≤ fuel + 1 → Ends rest →
    readValue (fuel + 1) (chars j ++ rest) = some (j, rest)) : ReadBack j := by
  intro fuel rest hf he
  obtain ⟨c, cs, hc, _⟩ := chars_eq_cons hj
  cases fuel with
  | zero => simp [hc] at hf
  | succ fuel => exact h fuel rest hf he

private theorem readBack_array {items : List Json} (hp : ∀ j ∈ items, Plain j) (h : ∀ j ∈ items, ReadBack j) :
    ReadBack (array items) := by
  refine readBack_of_succ (.array hp) fun fuel rest hf _ => ?_
  cases items with
  | nil => simp [readValue, chars, itemChars, skip_cons, isBlank]
  | cons j items =>
    obtain ⟨c, cs, hc, hb, hclose⟩ : ∃ c cs, itemChars (j :: items) = c :: cs ∧ isBlank c = false ∧ c ≠ ']' := by
      obtain ⟨c, cs, hc, hb⟩ := chars_eq_cons (hp j (List.mem_cons_self ..))
      cases items with
      | nil => exact ⟨c, cs ++ [']'], by rw [itemChars, hc, List.cons_append], hb⟩
      | cons i items => exact ⟨c, _, by rw [itemChars_cons, hc, List.cons_append], hb⟩
    have hr := readItems_itemChars (List.cons_ne_nil j items) h fuel rest (Nat.le_of_succ_le_succ hf)
    rw [hc, List.cons_append] at hr
    rw [chars, hc, List.cons_append, List.cons_append, readValue, skip_cons rfl]
    simp only [skip_cons hb]
    split
    · rename_i heq
      cases heq
      exact absurd rfl hclose
    · rw [hr]
      rfl

private theorem readBack_record {members : List (String × Json)} (hp : ∀ m ∈ members, Plain m.2)
    (h : ∀ m ∈ members, ReadBack m.2) : ReadBack (record members) := by
  refine readBack_of_succ (.record hp) fun fuel rest hf _ => ?_
  have hchars : chars (record members) = '\x7b' :: memberChars (keyed members) := rfl
  cases members with
  | nil => simp [record, readValue, chars, memberChars, skip_cons, isBlank]
  | cons m members =>
    obtain ⟨k, j⟩ := m
    obtain ⟨cs, hc⟩ : ∃ cs, memberChars (keyed ((k, j) :: members)) = '"' :: cs := by
      cases members with
      | nil => exact ⟨_, memberChars_singleton k j⟩
      | cons m members => exact ⟨_, memberChars_cons k j _ _⟩
    rw [hchars, List.length_cons] at hf
    have hr := readMembers_memberChars (List.cons_ne_nil (k, j) members) h fuel rest (Nat.le_of_succ_le_succ hf)
    rw [hc, List.cons_append] at hr
    rw [hchars, hc, List.cons_append, List.cons_append, readValue, skip_cons rfl]
    simp only [skip_cons (c := '"') rfl]
    exact congrArg (Option.map fun r => (object r.1, r.2)) hr

/-- Every plain value is read back, by induction on its items and members. -/
theorem readBack {j : Json} (h : Plain j) : ReadBack j := by
  induction h with
  | int n => exact readBack_of_succ (.int n) fun fuel rest _ he => readValue_int n fuel he
  | null => exact readBack_of_succ .null fun fuel rest _ _ => by simp [readValue, chars, skip_cons, isBlank, dropWord?]
  | bool b =>
    refine readBack_of_succ (.bool b) fun fuel rest _ _ => ?_
    cases b <;> simp [readValue, chars, skip_cons, isBlank, dropWord?]
  | text s =>
    refine readBack_of_succ (.text s) fun fuel rest _ _ => ?_
    rw [chars_text, readValue, skip_quote]
    simp only [readText_quote]
    rfl
  | array hp ih => exact readBack_array hp ih
  | record hp ih => exact readBack_record hp ih

theorem parse?_compact {j : Json} (h : Plain j) : parse? j.compact = some j := by
  have hr := readBack h ((chars j).length + 1) [] (Nat.le_succ _) nofun
  rw [List.append_nil] at hr
  simp only [parse?, compact, String.length_ofList, String.toList_ofList, hr]
  rfl

theorem eq_of_compact_eq {i j : Json} (hi : Plain i) (hj : Plain j) (h : i.compact = j.compact) : i = j := by
  have hp := parse?_compact hi
  rw [h, parse?_compact hj] at hp
  exact (Option.some.inj hp).symm

end Value

end LiquidityBook.Json
