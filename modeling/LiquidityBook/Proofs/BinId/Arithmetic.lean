import LiquidityBook.BinId

/-! Bins by exponent and by offset. The number of a bin is the exact sum for every exponent and offset that leads to
one, and so is the number that is reported where there is none. For the last `2 ^ 23` exponents of 64 bits there is no
result at all. -/
namespace LiquidityBook.BinId

private theorem exists_ofInt_iff {id : Int} : (∃ b, ofInt id = .ok b) ↔ 0 ≤ id ∧ id < 2 ^ 24 := by
  constructor
  · rintro ⟨b, h⟩
    have hvalue := ofInt_eq_ok_iff.1 h
    have hlt := b.isLt
    omega
  · rintro ⟨hlow, hhigh⟩
    exact ⟨⟨id.toNat, by omega⟩, ofInt_eq_ok_iff.2 (Int.toNat_of_nonneg hlow)⟩

private theorem exponent_eq_iff (b : BinId) (k : Int) : b.exponent = k ↔ (b.value : Int) = k + 2 ^ 23 := by
  simp only [exponent, centerValue]
  omega

/-- The bins end far below the exponents that abort. -/
theorem ofExponent_eq_ok_iff {e : Int64} {c : BinId} : ofExponent e = some (.ok c) ↔ c.exponent = e.toInt := by
  have hc := c.isLt
  rw [ofExponent_eq_some_iff, above_eq_ok_iff]
  refine and_iff_right_of_imp fun h => ?_
  rw [exponent_eq_iff] at h
  omega

theorem exists_ofExponent_iff {e : Int64} :
    (∃ c, ofExponent e = some (.ok c)) ↔ -2 ^ 23 ≤ e.toInt ∧ e.toInt < 2 ^ 23 := by
  have hexists : (∃ c, ofExponent e = some (.ok c)) ↔ ∃ c, ofInt (e.toInt + 2 ^ 23) = .ok c := by
    refine exists_congr fun c => ?_
    rw [ofExponent_eq_ok_iff, exponent_eq_iff, ofInt_eq_ok_iff]
  rw [hexists, exists_ofInt_iff]
  omega

theorem ofExponent_eq_error_iff {e : Int64} {err : Error} :
    ofExponent e = some (.error err) ↔ ¬ (-2 ^ 23 ≤ e.toInt ∧ e.toInt < 2 ^ 23) ∧ e.toInt < 2 ^ 63 - 2 ^ 23 ∧
      err = .binIdOutOfRange (e.toInt + 2 ^ 23) := by
  have hcenter : (centerValue : Int) = 2 ^ 23 := rfl
  have hrange : (0 ≤ e.toInt + 2 ^ 23 ∧ e.toInt + 2 ^ 23 < 2 ^ 24) ↔ -2 ^ 23 ≤ e.toInt ∧ e.toInt < 2 ^ 23 := by omega
  rw [ofExponent_eq_some_iff, above, hcenter, ofInt_eq_error_iff, hrange]
  exact and_left_comm

private theorem distance_eq (a b : BinId) : a.distance b = ((a.value : Int) - b.value).natAbs := by
  unfold distance exponent
  congr 1
  omega

private theorem ofExponent_offset_offset {b c : BinId} {m n : Int32} (h : b.offset m.toInt = .ok c) :
    ofExponent (.ofInt (b.exponent + m.toInt + n.toInt)) = some (c.offset n.toInt) := by
  have hc : c.exponent = b.exponent + m.toInt := by
    have hvalue := offset_eq_ok_iff.1 h
    simp only [exponent]
    omega
  rw [← hc]
  exact ofExponent_offset c n

private theorem offset_injective {b c : BinId} {m n : Int32} (hm : b.offset m.toInt = .ok c)
    (hn : b.offset n.toInt = .ok c) : m = n := by
  have hvaluem := offset_eq_ok_iff.1 hm
  have hvaluen := offset_eq_ok_iff.1 hn
  exact Int32.toInt_inj.1 (by omega)

/-- Every exponent of 64 bits from `-2 ^ 23` up to `2 ^ 23 - 1` has its bin, and no other one has; what is reported for
these is their sum with the center, except that there is no result from `2 ^ 63 - 2 ^ 23` on. Every offset of 32 bits
has a result and leads to the bin that far away wherever there is one, one after another they lead on from there, and
different ones lead to different bins. -/
theorem steps_exact (e : Int64) (b : BinId) (m n : Int32) :
    (((∃ c, ofExponent e = some (.ok c)) ↔ -2 ^ 23 ≤ e.toInt ∧ e.toInt < 2 ^ 23) ∧
      (∀ c, ofExponent e = some (.ok c) ↔ (c.value : Int) = e.toInt + 2 ^ 23) ∧
      (∀ c, ofExponent e = some (.ok c) ↔ c.exponent = e.toInt) ∧
      (∀ err, ofExponent e = some (.error err) ↔ ¬ (-2 ^ 23 ≤ e.toInt ∧ e.toInt < 2 ^ 23) ∧
        e.toInt < 2 ^ 63 - 2 ^ 23 ∧ err = .binIdOutOfRange (e.toInt + 2 ^ 23)) ∧
      (ofExponent e = none ↔ 2 ^ 63 - 2 ^ 23 ≤ e.toInt)) ∧
    ofExponent (.ofInt (b.exponent + m.toInt)) = some (b.offset m.toInt) ∧
    ((∃ c, b.offset m.toInt = .ok c) ↔ 0 ≤ b.value + m.toInt ∧ b.value + m.toInt < 2 ^ 24) ∧
    (∀ err, b.offset m.toInt = .error err → err = .binIdOutOfRange (b.value + m.toInt)) ∧
    ∀ c, b.offset m.toInt = .ok c →
      (c.value : Int) = b.value + m.toInt ∧ c.distance b = m.toInt.natAbs ∧ b.distance c = m.toInt.natAbs ∧
        ofExponent (.ofInt (b.exponent + m.toInt + n.toInt)) = some (c.offset n.toInt) ∧
        (b.offset n.toInt = .ok c → m = n) := by
  refine ⟨⟨exists_ofExponent_iff, fun c => ?_, fun c => ofExponent_eq_ok_iff, fun err => ofExponent_eq_error_iff,
    ofExponent_eq_none_iff⟩, ofExponent_offset b m, ?_, fun err h => (offset_eq_error_iff.1 h).2, fun c h => ?_⟩
  · rw [ofExponent_eq_ok_iff, exponent_eq_iff]
  · rw [offset_eq, exists_ofInt_iff]
  · have hvalue := offset_eq_ok_iff.1 h
    have hfar : c.distance b = m.toInt.natAbs ∧ b.distance c = m.toInt.natAbs := by
      rw [distance_eq, distance_eq]
      omega
    exact ⟨hvalue, hfar.1, hfar.2, ofExponent_offset_offset h, offset_injective h⟩

/-- From the center five bins up, and from there nine down, is four below the center, where the last exponent that has
a bin leads to the last bin. -/
theorem steps_exact_around_center :
    ((∃ b, ofExponent 8388607 = some (.ok b)) ∧ ¬ ∃ b, ofExponent 8388608 = some (.ok b)) ∧
    (∃ c d, center.offset (5 : Int32).toInt = .ok c ∧ c.distance center = 5 ∧
      c.offset (-9 : Int32).toInt = .ok d ∧ ofExponent (-4) = some (.ok d)) ∧
    center.offset (8388608 : Int32).toInt = .error (.binIdOutOfRange 16777216) := by
  obtain ⟨hlast, -, -, -, hoff⟩ := steps_exact 8388607 center 5 (-9)
  obtain ⟨hnext, -⟩ := steps_exact 8388608 center 0 0
  have hc : center.offset (5 : Int32).toInt = .ok ⟨8388613, by decide⟩ := by decide +kernel
  have hsum : Int64.ofInt (center.exponent + (5 : Int32).toInt + (-9 : Int32).toInt) = -4 := by decide +kernel
  have hd : (⟨8388613, by decide⟩ : BinId).offset (-9 : Int32).toInt = .ok ⟨8388604, by decide⟩ := by decide +kernel
  have hnone : ¬ (-2 ^ 23 ≤ (8388608 : Int64).toInt ∧ (8388608 : Int64).toInt < 2 ^ 23) := by decide +kernel
  obtain ⟨-, hfar, -, hcomp, -⟩ := hoff _ hc
  rw [hsum, hd] at hcomp
  refine ⟨⟨hlast.1.2 (by decide +kernel), mt hnext.1.1 hnone⟩, ⟨_, _, hc, hfar, hd, hcomp⟩, ?_⟩
  decide +kernel

/-- For the last exponent of all there is no result, although its sum with the center is a number like any other. -/
theorem last_exponent_aborts :
    ofExponent Int64.maxValue = none ∧ Int64.maxValue.toInt + 2 ^ 23 = 9223372036863164415 := by
  decide +kernel

end LiquidityBook.BinId
