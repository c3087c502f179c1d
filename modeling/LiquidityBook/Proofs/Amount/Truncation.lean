import LiquidityBook.Proofs.Amount.Grammar

/-! Machine amounts as exact truncations. A numeral is told by its characters alone, and the rational it denotes by
all its digits and the place of its point; reading gives that rational in machine units, rounded down, and refuses all
else. -/
namespace LiquidityBook.Amount
open Digits (padRight)

/-- The text is made of ASCII digits, at least one, and of at most one point. -/
structure IsNumeral (text : String) : Prop where
  chars : ∀ c ∈ text.toList, c.isDigit ∨ c = '.'
  point : text.toList.count '.' ≤ 1
  digit : ∃ c ∈ text.toList, c.isDigit

def places (text : String) : Nat := ((text.toList.dropWhile (· != '.')).drop 1).length

/-- The rational that a numeral denotes: all its digits as one integer, over ten for each place. -/
def number (text : String) : ℚ := Digits.value (text.toList.filter (· != '.')) / 10 ^ places text

variable {text : String} {cs whole fraction : List Char} {decimals : Nat}

private theorem ne_point_of_isDigit {c : Char} (h : c.isDigit) : c ≠ '.' := by
  rintro rfl
  exact absurd h (by decide)

private theorem filter_digits {digits : List Char} (h : ∀ c ∈ digits, c.isDigit) :
    digits.filter (· != '.') = digits := by
  apply List.filter_eq_self.2
  intro c hc
  exact bne_iff_ne.2 (ne_point_of_isDigit (h c hc))

private theorem dropWhile_digits {digits : List Char} (h : ∀ c ∈ digits, c.isDigit) (rest : List Char) :
    (digits ++ rest).dropWhile (· != '.') = rest.dropWhile (· != '.') := by
  apply List.dropWhile_append_of_pos
  intro c hc
  exact bne_iff_ne.2 (ne_point_of_isDigit (h c hc))

theorem isNumeral_iff : IsNumeral text ↔ ∃ whole fraction, parts? text.toList = some (whole, fraction) := by
  constructor
  · intro h
    by_cases hp : '.' ∈ text.toList
    · obtain ⟨whole, fraction, hs⟩ := List.append_of_mem hp
      have hperm : text.toList.Perm ('.' :: (whole ++ fraction)) := hs ▸ List.perm_middle
      have hno : '.' ∉ whole ++ fraction := by
        have hcount := h.point
        rw [hperm.count_eq, List.count_cons_self] at hcount
        exact List.count_eq_zero.1 (by omega)
      refine ⟨whole, fraction, parts?_eq_some_iff.2 ⟨?_, ?_, .inr hs⟩⟩
      · intro c hc
        rcases h.chars c (hperm.mem_iff.2 (List.mem_cons_of_mem _ hc)) with hd | rfl
        · exact hd
        · exact absurd hc hno
      · obtain ⟨c, hc, hd⟩ := h.digit
        rcases List.mem_cons.1 (hperm.mem_iff.1 hc) with rfl | hc
        · exact absurd hd (by decide)
        · exact List.ne_nil_of_mem hc
    · refine ⟨text.toList, [], parts?_eq_some_iff.2 ⟨?_, ?_, .inl ⟨rfl, rfl⟩⟩⟩
      · intro c hc
        rw [List.append_nil] at hc
        rcases h.chars c hc with hd | rfl
        · exact hd
        · exact absurd hc hp
      · obtain ⟨c, hc, _⟩ := h.digit
        exact List.ne_nil_of_mem (List.mem_append_left _ hc)
  · rintro ⟨whole, fraction, hp⟩
    obtain ⟨hd, hne, hs⟩ := parts?_eq_some_iff.1 hp
    obtain ⟨d, hmem⟩ := List.exists_mem_of_ne_nil _ hne
    have hno : (whole ++ fraction).count '.' = 0 := List.count_eq_zero.2 fun hm => ne_point_of_isDigit (hd _ hm) rfl
    rcases hs with ⟨hs, rfl⟩ | hs
    · rw [List.append_nil, ← hs] at hd hno hmem
      exact ⟨fun c hc => .inl (hd c hc), by omega, d, hmem, hd d hmem⟩
    · have hperm : text.toList.Perm ('.' :: (whole ++ fraction)) := hs ▸ List.perm_middle
      refine ⟨?_, ?_, d, hperm.mem_iff.2 (List.mem_cons_of_mem _ hmem), hd d hmem⟩
      · intro c hc
        exact (List.mem_cons.1 (hperm.mem_iff.1 hc)).symm.imp_left (hd c)
      · rw [hperm.count_eq, List.count_cons_self, hno]

/-- The digits in front of the point and behind it make up one integer. -/
theorem number_of_parts? (h : parts? text.toList = some (whole, fraction)) :
    number text = Digits.value whole + Digits.value fraction / 10 ^ fraction.length := by
  obtain ⟨hd, _, hs⟩ := parts?_eq_some_iff.1 h
  have hw : ∀ c ∈ whole, c.isDigit := fun c hc => hd c (List.mem_append_left _ hc)
  have hf : ∀ c ∈ fraction, c.isDigit := fun c hc => hd c (List.mem_append_right _ hc)
  rcases hs with ⟨hs, rfl⟩ | hs
  · have hdrop := dropWhile_digits hw []
    rw [List.append_nil] at hdrop
    rw [number, places, hs, filter_digits hw, hdrop]
    simp [Digits.value]
  · rw [number, places, hs, dropWhile_digits hw, List.filter_append, filter_digits hw]
    have hfilter : ('.' :: fraction).filter (· != '.') = fraction := by simpa using filter_digits hf
    have hdrop : ('.' :: fraction).dropWhile (· != '.') = '.' :: fraction := by simp
    rw [hfilter, hdrop, List.drop_succ_cons, List.drop_zero, Digits.value_append]
    push_cast
    field_simp

private theorem denotes_iff_isNumeral {x : ℚ} : Denotes text x ↔ IsNumeral text ∧ x = number text := by
  rw [denotes_iff, isNumeral_iff]
  constructor
  · rintro ⟨whole, fraction, hp, rfl⟩
    exact ⟨⟨whole, fraction, hp⟩, (number_of_parts? hp).symm⟩
  · rintro ⟨⟨whole, fraction, hp⟩, rfl⟩
    exact ⟨whole, fraction, hp, number_of_parts? hp⟩

private theorem machine_iff {n : Nat} : Machine text decimals n ↔
    (IsNumeral text ∧ decimals ≤ 77 ∧ ⌊number text * 10 ^ decimals⌋₊ < 2 ^ 256) ∧
      n = ⌊number text * 10 ^ decimals⌋₊ := by
  constructor
  · rintro ⟨hd, hlt, x, hx, rfl⟩
    obtain ⟨hn, rfl⟩ := denotes_iff_isNumeral.1 hx
    exact ⟨⟨hn, hd, hlt⟩, rfl⟩
  · rintro ⟨⟨hn, hd, hlt⟩, rfl⟩
    exact ⟨hd, hlt, _, denotes_iff_isNumeral.2 ⟨hn, rfl⟩, rfl⟩

/-- Reading an amount succeeds exactly for the numerals whose number, in machine units of up to 77 decimals and rounded
down, is of 256 bits, and gives that integer; any other text is reported as it is. The digits kept of a fraction can
always be read, so that none is ever taken for zero. -/
theorem toMachine_truncates (text : String) (decimals : Nat) :
    let machine := ⌊number text * 10 ^ decimals⌋₊
    let accepted := IsNumeral text ∧ decimals ≤ 77 ∧ machine < 2 ^ 256
    (∀ m, toMachine text decimals = .ok m ↔ accepted ∧ m.toNat = machine) ∧
    (¬ accepted → ∃ fault, toMachine text decimals = .error (.invalidAmount text fault)) ∧
    ∀ whole fraction unit, parts? text.toList = some (whole, fraction) → unit? decimals = some unit →
      ∃ rest, ofDigits? (padRight decimals (fraction.take decimals)) = some rest := by
  intro machine accepted
  have hok : ∀ m, toMachine text decimals = .ok m ↔ accepted ∧ m.toNat = machine :=
    fun m => toMachine_eq_ok_iff.trans machine_iff
  refine ⟨hok, ?_, ?_⟩
  · intro hn
    cases h : toMachine text decimals with
    | ok m => exact absurd ((hok m).1 h).1 hn
    | error e =>
      obtain ⟨fault, rfl⟩ := invalidAmount_of_toMachine h
      exact ⟨fault, rfl⟩
  · intro whole fraction unit hp hu
    have hd := (parts?_eq_some_iff.1 hp).1
    have hunit := Uint.toNat_of_ofNat? hu
    obtain ⟨rest, hrest, _⟩ := ofDigits?_kept (fun c hc => hd c (List.mem_append_right _ hc)) (hunit ▸ unit.isLt)
    exact ⟨rest, hrest⟩

/-- The largest amount, with digits behind its last decimal. -/
example : toMachine "0115792089237316195423570985008687907853269984665640564039457584007913129.6399359" 6 =
    .ok ⟨2 ^ 256 - 1, by decide⟩ := by decide +kernel

end LiquidityBook.Amount
