import LiquidityBook.Error

/-! Bin ids: 24-bit numbers around a center whose lower price edge is one. -/
namespace LiquidityBook

/-- The index of a price bin. -/
structure BinId where
  value : Nat
  isLt : value < 2 ^ 24
deriving DecidableEq

namespace BinId

/-- The id of the bin that starts at price one. -/
def centerValue : Nat := 2 ^ 23

def center : BinId := ⟨centerValue, by decide⟩

instance : Inhabited BinId := ⟨center⟩

@[ext] theorem ext {a b : BinId} (h : a.value = b.value) : a = b := by
  cases a; cases b; cases h; rfl

def ofNat (n : Nat) : Except Error BinId :=
  if h : n < 2 ^ 24 then .ok ⟨n, h⟩ else .error (.binIdOutOfRange n)

/-- The bin with a number, if there is one. -/
def ofInt (id : Int) : Except Error BinId :=
  if h : 0 ≤ id ∧ id < 2 ^ 24 then .ok ⟨id.toNat, by omega⟩ else .error (.binIdOutOfRange id)

/-- The bin that many steps above the center. -/
def above (steps : Int) : Except Error BinId := ofInt (steps + centerValue)

/-- The bin of an exponent of 64 bits. The sum with the center is taken in 64 bits before it is looked at. Where it does
not fit the addition aborts, and there is no result, not even an error; a build that leaves out overflow checks goes on
with the sum wrapped around instead. -/
def ofExponent (exponent : Int64) : Option (Except Error BinId) :=
  if exponent.toInt + centerValue < 2 ^ 63 then some (above exponent.toInt) else none

/-- Steps above the center. -/
def exponent (b : BinId) : Int := b.value - centerValue

def offset (b : BinId) (delta : Int) : Except Error BinId := above (b.exponent + delta)

def distance (a b : BinId) : Nat := (a.exponent - b.exponent).natAbs

theorem ofNat_value (b : BinId) : ofNat b.value = .ok b := dif_pos b.isLt

theorem ofNat_eq_ok_iff {n : Nat} {b : BinId} : ofNat n = .ok b ↔ b.value = n := by
  constructor
  · intro h
    unfold ofNat at h
    split at h
    · cases h
      rfl
    · cases h
  · rintro rfl
    exact b.ofNat_value

theorem toNat_value (b : BinId) : (UInt32.ofNat b.value).toNat = b.value :=
  UInt32.toNat_ofNat_of_lt' (Nat.lt_trans b.isLt (by decide))

theorem ofInt_eq_ok_iff {id : Int} {b : BinId} : ofInt id = .ok b ↔ (b.value : Int) = id := by
  have hb := b.isLt
  unfold ofInt
  by_cases h : 0 ≤ id ∧ id < 2 ^ 24
  · rw [dif_pos h, Except.ok.injEq, BinId.ext_iff]
    simp only
    omega
  · rw [dif_neg h]
    exact iff_of_false nofun (by omega)

theorem ofInt_eq_error_iff {id : Int} {e : Error} :
    ofInt id = .error e ↔ ¬ (0 ≤ id ∧ id < 2 ^ 24) ∧ e = .binIdOutOfRange id := by
  unfold ofInt
  by_cases h : 0 ≤ id ∧ id < 2 ^ 24
  · rw [dif_pos h]
    exact iff_of_false nofun fun hn => hn.1 h
  · rw [dif_neg h, Except.error.injEq]
    exact ⟨fun he => ⟨h, he.symm⟩, fun he => he.2.symm⟩

theorem above_eq_ok_iff {k : Int} {b : BinId} : above k = .ok b ↔ b.exponent = k := by
  rw [above, ofInt_eq_ok_iff, exponent]
  omega

theorem ofExponent_eq_some_iff {e : Int64} {result : Except Error BinId} :
    ofExponent e = some result ↔ e.toInt < 2 ^ 63 - 2 ^ 23 ∧ above e.toInt = result := by
  have hcenter : (centerValue : Int) = 2 ^ 23 := rfl
  unfold ofExponent
  split
  · exact ⟨fun h => ⟨by omega, Option.some.inj h⟩, fun h => congrArg some h.2⟩
  · exact iff_of_false nofun fun h => by omega

theorem ofExponent_eq_none_iff {e : Int64} : ofExponent e = none ↔ 2 ^ 63 - 2 ^ 23 ≤ e.toInt := by
  have hcenter : (centerValue : Int) = 2 ^ 23 := rfl
  unfold ofExponent
  split
  · exact iff_of_false nofun (by omega)
  · exact iff_of_true rfl (by omega)

theorem exponent_injective {a b : BinId} (h : a.exponent = b.exponent) : a = b := by
  have ha : above b.exponent = .ok a := above_eq_ok_iff.2 h
  rw [above_eq_ok_iff.2 rfl] at ha
  exact (Except.ok.inj ha).symm

theorem offset_eq (b : BinId) (delta : Int) : b.offset delta = ofInt (b.value + delta) := by
  rw [offset, above, exponent]
  congr 1
  omega

theorem offset_eq_ok_iff {b c : BinId} {delta : Int} : b.offset delta = .ok c ↔ (c.value : Int) = b.value + delta := by
  rw [offset_eq, ofInt_eq_ok_iff]

theorem offset_eq_error_iff {b : BinId} {delta : Int} {e : Error} :
    b.offset delta = .error e ↔
      ¬ (0 ≤ b.value + delta ∧ b.value + delta < 2 ^ 24) ∧ e = .binIdOutOfRange (b.value + delta) := by
  rw [offset_eq, ofInt_eq_error_iff]

/-- An offset of 32 bits leads to an exponent for which nothing aborts. -/
theorem ofExponent_offset (b : BinId) (delta : Int32) :
    ofExponent (.ofInt (b.exponent + delta.toInt)) = some (b.offset delta.toInt) := by
  have hb := b.isLt
  have hlow := delta.le_toInt
  have hhigh := delta.toInt_lt
  have hsum : (Int64.ofInt (b.exponent + delta.toInt)).toInt = b.exponent + delta.toInt :=
    Int64.toInt_ofInt_of_le (by simp only [exponent, centerValue]; omega) (by simp only [exponent, centerValue]; omega)
  rw [ofExponent_eq_some_iff, hsum]
  refine ⟨?_, rfl⟩
  simp only [exponent, centerValue]
  omega

end BinId

end LiquidityBook
