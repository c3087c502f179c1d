/-! Characters and the texts made of them: white space, hexadecimal digits of either case, and viewing keys, which are
64 hexadecimal digits, the text of 32 bytes. -/
namespace LiquidityBook

namespace Text

/-- The characters of the Unicode property `White_Space`. -/
def isBlank (c : Char) : Bool :=
  let n := c.toNat
  (0x09 ≤ n && n ≤ 0x0d) || n == 0x20 || n == 0x85 || n == 0xa0 || n == 0x1680 ||
    (0x2000 ≤ n && n ≤ 0x200a) || n == 0x2028 || n == 0x2029 || n == 0x202f || n == 0x205f || n == 0x3000

def trimChars (cs : List Char) : List Char :=
  ((cs.dropWhile isBlank).reverse.dropWhile isBlank).reverse

def trim (s : String) : String := String.ofList (trimChars s.toList)

end Text

namespace Hex

def digit? (c : Char) : Option Nat :=
  if c.isDigit then some (c.toNat - '0'.toNat)
  else if 'a' ≤ c && c ≤ 'f' then some (c.toNat - 'a'.toNat + 10)
  else if 'A' ≤ c && c ≤ 'F' then some (c.toNat - 'A'.toNat + 10)
  else none

def isDigit (c : Char) : Bool := (digit? c).isSome

/-- The number a run of hexadecimal digits denotes. -/
def value? (digits : List Char) : Option Nat :=
  digits.foldlM (fun n c => (digit? c).map (16 * n + ·)) 0

/-- A blank that may stand among digits. -/
def isBlank (c : Char) : Bool := c == ' ' || c == '\t' || c == '\n' || c == '\r'

/-- The number that digits with blanks among them denote. Blanks count where the digits are paired
to bytes: after an odd number of them the last digit has no partner and is left out. -/
def spacedValue? (cs : List Char) : Option Nat :=
  (value? (cs.filter (!isBlank ·))).map fun n => if cs.countP isBlank % 2 = 0 then n else n / 16

/-- Two lower-case digits for each byte. -/
def ofBytes (bytes : List UInt8) : List Char :=
  bytes.flatMap fun b => [Nat.digitChar (b.toNat / 16), Nat.digitChar (b.toNat % 16)]

private theorem digit?_digitChar {n : Nat} (h : n < 16) : digit? (Nat.digitChar n) = some n := by
  have hd : ∀ m : Fin 16, digit? (Nat.digitChar m) = some m.val := by decide
  exact hd ⟨n, h⟩

private theorem isDigit_digitChar {n : Nat} (h : n < 16) : isDigit (Nat.digitChar n) := by
  rw [isDigit, digit?_digitChar h]
  rfl

private theorem length_ofBytes (bytes : List UInt8) : (ofBytes bytes).length = 2 * bytes.length := by
  induction bytes with
  | nil => rfl
  | cons b bytes ih =>
    simp only [ofBytes] at ih
    simp only [ofBytes, List.flatMap_cons, List.length_append, List.length_cons, List.length_nil, ih]
    omega

private theorem isDigit_of_mem_ofBytes {bytes : List UInt8} {c : Char} (h : c ∈ ofBytes bytes) : isDigit c := by
  obtain ⟨b, _, hc⟩ := List.mem_flatMap.1 h
  have hb := b.toNat_lt
  simp only [List.mem_cons, List.not_mem_nil, or_false] at hc
  rcases hc with rfl | rfl
  · exact isDigit_digitChar (by omega)
  · exact isDigit_digitChar (by omega)

private theorem value?_toDigits (n : Nat) : value? (Nat.toDigits 16 n) = some n := by
  induction n using Nat.strongRecOn with
  | ind n ih =>
    rcases Nat.lt_or_ge n 16 with hn | hn
    · rw [Nat.toDigits_of_lt_base hn]
      simp [value?, digit?_digitChar hn]
    · have hq := ih (n / 16) (by omega)
      rw [Nat.toDigits_of_base_le (by decide) hn]
      simp only [value?] at hq
      simp [value?, List.foldlM_append, hq, digit?_digitChar (Nat.mod_lt n (by decide : 0 < 16)), Nat.div_add_mod]

private theorem not_isBlank_of_mem_toDigits {n : Nat} {c : Char} (h : c ∈ Nat.toDigits 16 n) : isBlank c = false := by
  have hd : ∀ m : Fin 16, isBlank (Nat.digitChar m) = false := by decide
  induction n using Nat.strongRecOn with
  | ind n ih =>
    rcases Nat.lt_or_ge n 16 with hn | hn
    · rw [Nat.toDigits_of_lt_base hn, List.mem_singleton] at h
      exact h ▸ hd ⟨n, hn⟩
    · rw [Nat.toDigits_of_base_le (by decide) hn, List.mem_append, List.mem_singleton] at h
      rcases h with h | rfl
      · exact ih (n / 16) (by omega) h
      · exact hd ⟨n % 16, Nat.mod_lt n (by decide)⟩

theorem spacedValue?_toDigits (n : Nat) : spacedValue? (Nat.toDigits 16 n) = some n := by
  have hf : (Nat.toDigits 16 n).filter (!isBlank ·) = Nat.toDigits 16 n := by
    simpa [List.filter_eq_self] using fun c hc => not_isBlank_of_mem_toDigits hc
  have hc : (Nat.toDigits 16 n).countP isBlank = 0 := by
    simpa [List.countP_eq_zero] using fun c hc => not_isBlank_of_mem_toDigits hc
  simp [spacedValue?, hf, hc, value?_toDigits]

end Hex

namespace ViewingKey

def isValid (key : String) : Bool := key.length == 64 && key.toList.all Hex.isDigit

/-- The key for these bytes. -/
def ofBytes (bytes : List UInt8) : String := String.ofList (Hex.ofBytes bytes)

theorem isValid_ofBytes {bytes : List UInt8} (h : bytes.length = 32) : isValid (ofBytes bytes) := by
  have hl : (ofBytes bytes).length = 64 := by
    rw [ofBytes, String.length_ofList, Hex.length_ofBytes, h]
  have hd : (ofBytes bytes).toList.all Hex.isDigit := by
    rw [ofBytes, String.toList_ofList, List.all_eq_true]
    exact fun c hc => Hex.isDigit_of_mem_ofBytes hc
  rw [isValid, hl, hd]
  rfl

end ViewingKey

end LiquidityBook
