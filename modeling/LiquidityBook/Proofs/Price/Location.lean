import LiquidityBook.Price
import LiquidityBook.Proofs.Binary64.Order
import Mathlib.Logic.ExistsUnique

/-! The bin of a price. From an estimate that is at most one bin off, the price's own bin is found wherever the edges do
not decrease, and it is refused only where it has no id. Of the machine's logarithm and powers nothing else is used. -/
namespace LiquidityBook.Price
open Binary64

section
variable {α β : Type} [LE α] [LT α] [LE β] [LT β]

def Rises (edge : Int → α) : Prop := ∀ i j, i ≤ j → edge i ≤ edge j

def Contains (edge : Int → α) (price : α) (k : Int) : Prop := edge k ≤ price ∧ price < edge (k + 1)

/-- The estimate is an integer, and the price lies in the bin with this exponent or in one next to it. -/
structure Estimates (edge : Int → α) (price : α) (estimate : Float) (f : Int) : Prop where
  whole : IsWhole estimate f
  low : edge (f - 1) ≤ price
  high : price < edge (f + 2)

/-- Exponents of the bins that have an id. -/
def HasId (k : Int) : Prop := -2 ^ 23 ≤ k ∧ k < 2 ^ 23

/-- The result is the one bin that contains the price, or else says that this bin has no id. -/
structure Located (edge : Int → α) (price : α) (estimate : Float) (f : Int) (result : Except Error BinId) : Prop where
  unique : ∃! k, Contains edge price k
  inside : ∀ k, Contains edge price k → HasId k → ∃ id, result = .ok id ∧ id.exponent = k
  outside : ∀ k, Contains edge price k → ¬ HasId k → ∃ n, result = .error (.binIdOutOfRange n) ∧ ¬ (0 ≤ n ∧ n < 2 ^ 24)
  /-- Nothing is rejected whose bin has an id. -/
  rejected : TooFar estimate → ∀ k, Contains edge price k → ¬ HasId k
  /-- What is not rejected is converted without being cut off. -/
  converted : ¬ TooFar estimate → (toInt64 estimate).toInt = f

variable {edge : Int → α} {edge' : Int → β} {price : α} {price' : β} {estimate : Float} {f : Int}

private theorem Estimates.of_iff (hle : ∀ k, edge k ≤ price ↔ edge' k ≤ price')
    (hlt : ∀ k, price < edge k ↔ price' < edge' k)
    (h : Estimates edge price estimate f) : Estimates edge' price' estimate f :=
  ⟨h.whole, (hle _).1 h.low, (hlt _).1 h.high⟩

private theorem Located.of_iff {result : Except Error BinId} (hle : ∀ k, edge k ≤ price ↔ edge' k ≤ price')
    (hlt : ∀ k, price < edge k ↔ price' < edge' k) (h : Located edge price estimate f result) :
    Located edge' price' estimate f result := by
  have hc : Contains edge' price' = Contains edge price := by
    funext k
    rw [Contains, Contains, hle, hlt]
  exact ⟨hc ▸ h.unique, hc ▸ h.inside, hc ▸ h.outside, hc ▸ h.rejected, h.converted⟩

private theorem locate_congr [DecidableLE α] [DecidableLT α] [DecidableLE β] [DecidableLT β]
    (hle : ∀ k, edge k ≤ price ↔ edge' k ≤ price') (hlt : ∀ k, price < edge k ↔ price' < edge' k) :
    locate edge price estimate = locate edge' price' estimate := by
  simp only [locate, corrected, hle, hlt]

end

private theorem hasId_iff {k : Int} : HasId k ↔ 0 ≤ k + BinId.centerValue ∧ k + BinId.centerValue < 2 ^ 24 := by
  simp only [HasId, BinId.centerValue]
  omega

private theorem exists_above {k : Int} (h : HasId k) : ∃ id, BinId.above k = .ok id ∧ id.exponent = k := by
  obtain ⟨hlow, hhigh⟩ := hasId_iff.1 h
  have hvalue : ((k + BinId.centerValue).toNat : Int) = k + BinId.centerValue := Int.toNat_of_nonneg hlow
  have hexp : BinId.exponent ⟨(k + BinId.centerValue).toNat, by omega⟩ = k := by
    rw [BinId.exponent, hvalue, Int.add_sub_cancel]
  exact ⟨_, BinId.above_eq_ok_iff.2 hexp, hexp⟩

private theorem exists_above_eq_error {k : Int} (h : ¬ HasId k) :
    ∃ n, BinId.above k = .error (.binIdOutOfRange n) ∧ ¬ (0 ≤ n ∧ n < 2 ^ 24) := by
  have hn := mt hasId_iff.2 h
  exact ⟨_, BinId.ofInt_eq_error_iff.2 ⟨hn, rfl⟩, hn⟩

private theorem tooFar_iff {estimate : Float} {f : Int} (h : IsWhole estimate f) :
    TooFar estimate ↔ f < -8388609 ∨ 8388608 < f := by
  have hlow : IsWhole (-8388609.0) (-8388609) := by decide +kernel
  have hhigh : IsWhole 8388608.0 8388608 := by decide +kernel
  rw [TooFar, lt_iff_of_isWhole h hlow, lt_iff_of_isWhole hhigh h]

/-- Where an estimate is too far out, its number is no id, even where the sum with the center wraps around. -/
private theorem tooFar_number {f : Int} (h : f < -8388609 ∨ 8388608 < f) :
    ¬ (0 ≤ (Int64.ofIntClamp f + .ofNat BinId.centerValue).toInt ∧
      (Int64.ofIntClamp f + .ofNat BinId.centerValue).toInt < 2 ^ 24) := by
  have hcenter : (Int64.ofNat BinId.centerValue).toInt = 8388608 := by decide
  have hclamp : (Int64.ofIntClamp f).toInt < -8388609 ∨ 8388608 < (Int64.ofIntClamp f).toInt := by
    unfold Int64.ofIntClamp
    split
    · split
      · rwa [Int64.toInt_ofIntLE]
      · exact .inr (by decide)
    · exact .inl (by decide)
  have hlow := (Int64.ofIntClamp f).le_toInt
  have hhigh := (Int64.ofIntClamp f).toInt_lt
  rw [Int64.toInt_add, hcenter, Int.bmod_def]
  omega

private theorem converted {estimate : Float} {f : Int} (h : IsWhole estimate f) (hnear : ¬ TooFar estimate) :
    (toInt64 estimate).toInt = f := by
  have hlow : Int64.minValue.toInt = -2 ^ 63 := by decide
  have hhigh : Int64.maxValue.toInt = 2 ^ 63 - 1 := by decide
  rw [tooFar_iff h] at hnear
  rw [toInt64_eq h, Int64.toInt_ofIntClamp (by omega) (by omega)]

section
variable {α : Type} [LinearOrder α] {edge : Int → α} {price : α} {estimate : Float} {f : Int}

private theorem corrected_near (edge : Int → α) (price : α) (f : Int) :
    f - 1 ≤ corrected edge price f ∧ corrected edge price f ≤ f + 1 := by
  unfold corrected
  split_ifs <;> omega

/-- An estimate that is not too far out is corrected to an exponent for which nothing aborts. -/
theorem ofExponent_corrected (h : IsWhole estimate f) (hnear : ¬ TooFar estimate) :
    BinId.ofExponent (.ofInt (corrected edge price (toInt64 estimate).toInt)) = some (locate edge price estimate) := by
  have hbounds := mt (tooFar_iff h).2 hnear
  have hone := corrected_near edge price f
  have hexact : (Int64.ofInt (corrected edge price f)).toInt = corrected edge price f :=
    Int64.toInt_ofInt_of_le (by omega) (by omega)
  rw [locate, if_neg hnear, converted h hnear, BinId.ofExponent_eq_some_iff, hexact]
  exact ⟨by omega, rfl⟩

private theorem contains_corrected (hlow : edge (f - 1) ≤ price) (hhigh : price < edge (f + 2)) :
    Contains edge price (corrected edge price f) := by
  unfold corrected
  split_ifs with hnext hhere
  · exact ⟨hnext, by rwa [add_assoc]⟩
  · exact ⟨hlow, by rwa [sub_add_cancel]⟩
  · exact ⟨not_lt.1 hhere, not_le.1 hnext⟩

private theorem Contains.le (hrise : Rises edge) {k l : Int} (hk : Contains edge price k) (hl : Contains edge price l) :
    k ≤ l := by
  by_contra hlt
  have hedge : edge (l + 1) ≤ edge k := hrise _ _ (by omega)
  exact absurd (hedge.trans hk.1) hl.2.not_ge

/-- The bounds leave one step on each side, which is all that the correction moves. -/
private theorem rejected (h : IsWhole estimate f) (hfar : TooFar estimate) : ¬ HasId (corrected edge price f) := by
  have hnear := corrected_near edge price f
  rw [tooFar_iff h] at hfar
  unfold HasId
  omega

private theorem locate_of_hasId (h : IsWhole estimate f) (hid : HasId (corrected edge price f)) :
    ∃ id, locate edge price estimate = .ok id ∧ id.exponent = corrected edge price f := by
  have hnear : ¬ TooFar estimate := fun hfar => rejected h hfar hid
  rw [locate, if_neg hnear, converted h hnear]
  exact exists_above hid

private theorem locate_of_not_hasId (h : IsWhole estimate f) (hid : ¬ HasId (corrected edge price f)) :
    ∃ n, locate edge price estimate = .error (.binIdOutOfRange n) ∧ ¬ (0 ≤ n ∧ n < 2 ^ 24) := by
  by_cases hfar : TooFar estimate
  · rw [locate, if_pos hfar, toInt64_eq h]
    exact ⟨_, rfl, tooFar_number ((tooFar_iff h).1 hfar)⟩
  · rw [locate, if_neg hfar, converted h hfar]
    exact exists_above_eq_error hid

private theorem located (hrise : Rises edge) (h : Estimates edge price estimate f) :
    Located edge price estimate f (locate edge price estimate) := by
  have hc := contains_corrected h.low h.high
  have hsole (k : Int) (hk : Contains edge price k) : k = corrected edge price f :=
    le_antisymm (hk.le hrise hc) (hc.le hrise hk)
  refine ⟨⟨_, hc, hsole⟩, ?_, ?_, ?_, converted h.whole⟩
  · intro k hk hid
    rw [hsole k hk] at hid ⊢
    exact locate_of_hasId h.whole hid
  · intro k hk hid
    rw [hsole k hk] at hid
    exact locate_of_not_hasId h.whole hid
  · intro hfar k hk
    rw [hsole k hk]
    exact rejected h.whole hfar

end

/-- Doubles that are no NaNs are ordered like their counts, and edges that do not decrease are no NaNs. -/
theorem located_float {edge : Int → Float} {price estimate : Float} {f : Int} (hrise : Rises edge)
    (hprice : isPrice price) (h : Estimates edge price estimate f) :
    Located edge price estimate f (locate edge price estimate) := by
  have hedge (k : Int) : (edge k).isNaN = false := isNaN_of_le (hrise k k le_rfl)
  have hnumber : price.isNaN = false := isNaN_of_isFinite (Bool.and_eq_true_iff.1 hprice).1
  have hle (k : Int) := le_iff_units (hedge k) hnumber
  have hlt (k : Int) := lt_iff_units hnumber (hedge k)
  have hunits : Rises fun k => units (edge k) := fun i j hij => (le_iff_units (hedge i) (hedge j)).1 (hrise i j hij)
  rw [locate_congr hle hlt]
  exact (located hunits (h.of_iff hle hlt)).of_iff (fun k => (hle k).symm) (fun k => (hlt k).symm)

private theorem exponent_hasId (id : BinId) : HasId id.exponent := by
  have hlt := id.isLt
  rw [hasId_iff, BinId.exponent]
  omega

namespace Platform
variable {p : Platform} {b price : Float} {binStep : UInt16} {f : Int}

private theorem toBin_located (hb : base binStep = .ok b) (hrise : Rises (p.power b)) (hprice : isPrice price)
    (h : Estimates (p.power b) price (p.estimate b price) f) :
    Located (p.power b) price (p.estimate b price) f (p.toBin price binStep) := by
  have hbin : p.toBin price binStep = locate (p.power b) price (p.estimate b price) := by
    rw [toBin, hb]
    simp only [hprice]
    rfl
  rw [hbin]
  exact located_float hrise hprice h

private theorem toBin_edge {id : BinId} (hb : base binStep = .ok b) (hrise : Rises (p.power b))
    (hprice : isPrice (p.power b id.exponent))
    (h : Estimates (p.power b) (p.power b id.exponent) (p.estimate b (p.power b id.exponent)) f)
    (hstrict : p.power b id.exponent < p.power b (id.exponent + 1)) :
    (p.ofBin id binStep).bind (p.toBin · binStep) = .ok id := by
  have hedge : p.ofBin id binStep = .ok (p.power b id.exponent) := by
    rw [ofBin, hb]
    rfl
  have hin : Contains (p.power b) (p.power b id.exponent) id.exponent := ⟨hrise _ _ le_rfl, hstrict⟩
  obtain ⟨id', hid', hexp⟩ := (toBin_located hb hrise hprice h).inside _ hin (exponent_hasId id)
  obtain rfl := BinId.exponent_injective hexp
  rw [hedge]
  exact hid'

end Platform

/-- Whatever the edges are, if they do not decrease and the estimate is an integer at most one bin off, a price is in
exactly one bin, and gets the id of this bin or the error that it has none. On a machine whose powers do not decrease
this holds for each positive finite price and bin step, and the edge of a bin leads back to the bin. -/
theorem price_located :
    (∀ (α : Type) [LinearOrder α] (edge : Int → α) (price : α) (estimate : Float) (f : Int), Rises edge →
      Estimates edge price estimate f → Located edge price estimate f (locate edge price estimate)) ∧
    ∀ (p : Platform) (binStep : UInt16), binStep ≠ 0 → ∃ b, base binStep = .ok b ∧ (Rises (p.power b) →
      (∀ price f, isPrice price → Estimates (p.power b) price (p.estimate b price) f →
        Located (p.power b) price (p.estimate b price) f (p.toBin price binStep)) ∧
      ∀ (id : BinId) f, isPrice (p.power b id.exponent) →
        Estimates (p.power b) (p.power b id.exponent) (p.estimate b (p.power b id.exponent)) f →
        p.power b id.exponent < p.power b (id.exponent + 1) →
        (p.ofBin id binStep).bind (p.toBin · binStep) = .ok id) := by
  refine ⟨fun α _ edge price estimate f hrise h => located hrise h, fun p binStep hstep => ?_⟩
  have hbase : base binStep = .ok (1.0 + binStep.toNat.toFloat / 10000.0) := if_neg hstep
  refine ⟨_, hbase, fun hrise => ⟨fun price f hprice h => Platform.toBin_located hbase hrise hprice h, ?_⟩⟩
  exact fun id f hprice h hstrict => Platform.toBin_edge hbase hrise hprice h hstrict

/-- A machine for bins that double, right where the witness looks: at the edges two to sixteen, and at the logarithms of
two, four and six. -/
def doubling : Platform where
  log x := if x = 2.0 then 0.6931471805599453 else if x = 4.0 then 1.3862943611198906 else 1.791759469228055
  floor x := Float.ofInt (toInt64 x).toInt
  power _ k := if k < 2 then 2.0 else if k < 3 then 4.0 else if k < 4 then 8.0 else 16.0

private theorem doubling_rises (b : Float) : Rises (doubling.power b) := by
  intro i j hij
  simp only [doubling]
  split_ifs <;> first | omega | decide +kernel

/-- On the doubling machine six lies between four and eight, and four is the edge of the same bin. With the integers as
edges, the first price above all ids is refused although its estimate is let through. -/
theorem price_located_doubling :
    (∃ id, doubling.toBin 6.0 10000 = .ok id ∧ id.exponent = 2) ∧
    (∃ id : BinId, id.exponent = 2 ∧ (doubling.ofBin id 10000).bind (doubling.toBin · 10000) = .ok id) ∧
    ¬ TooFar 8388608.0 ∧ ∃ n, locate (fun k : Int => k) 8388608 8388608.0 = .error (.binIdOutOfRange n) := by
  obtain ⟨b, hb, hall⟩ := price_located.2 doubling 10000 (by decide)
  obtain ⟨hprice, hedge⟩ := hall (doubling_rises b)
  have hbase : base 10000 = .ok 2.0 := by decide +kernel
  obtain rfl : 2.0 = b := Except.ok.inj (hbase.symm.trans hb)
  have hsix : Estimates (doubling.power 2.0) 6.0 (doubling.estimate 2.0 6.0) 2 :=
    ⟨by decide +kernel, by decide +kernel, by decide +kernel⟩
  have hfour : Estimates (doubling.power 2.0) 4.0 (doubling.estimate 2.0 4.0) 2 :=
    ⟨by decide +kernel, by decide +kernel, by decide +kernel⟩
  have hlast : Estimates (fun k : Int => k) 8388608 8388608.0 8388608 :=
    ⟨by decide +kernel, by decide, by decide⟩
  refine ⟨?_, ⟨⟨8388610, by decide⟩, by decide, ?_⟩, ?_, ?_⟩
  · exact (hprice 6.0 2 (by decide +kernel) hsix).inside 2 ⟨by decide +kernel, by decide +kernel⟩ ⟨by decide, by decide⟩
  · exact hedge _ 2 (by decide +kernel) hfour (by decide +kernel)
  · decide +kernel
  · obtain ⟨n, hn, _⟩ := (price_located.1 Int (fun k => k) 8388608 8388608.0 8388608 (fun _ _ h => h) hlast).outside
      8388608 ⟨by decide, by decide⟩ (by rintro ⟨_, hlt⟩; exact absurd hlt (by decide))
    exact ⟨n, hn⟩

end LiquidityBook.Price
