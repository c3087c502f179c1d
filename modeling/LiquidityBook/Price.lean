import LiquidityBook.BinId
import LiquidityBook.Binary64.Text

/-! Prices and the bins that hold them. Bin `k` above the center holds the prices from
`base ^ k` up to, but not including, `base ^ (k + 1)`. -/
namespace LiquidityBook.Price

/-- Below the lowest bin or above the highest one by more than a step. -/
def TooFar (estimate : Float) : Prop := estimate < -8388609.0 ∨ 8388608.0 < estimate

instance {estimate : Float} : Decidable (TooFar estimate) := inferInstanceAs (Decidable (_ ∨ _))

section
variable {α : Type} [LE α] [LT α] [DecidableLE α] [DecidableLT α]

/-- The exponent, or the one next to it on the side where the price lies outside. -/
def corrected (edge : Int → α) (price : α) (exponent : Int) : Int :=
  if edge (exponent + 1) ≤ price then exponent + 1
  else if price < edge exponent then exponent - 1
  else exponent

/-- The bin that holds a price, found from an estimate of its exponent that is at most one off.
`edge k` is the lower price of the bin with exponent `k`. The number in the first error is a sum in 64 bits that wraps
around, where a build with overflow checks aborts; no estimate made with a logarithm is large enough for that. -/
def locate (edge : Int → α) (price : α) (estimate : Float) : Except Error BinId :=
  if TooFar estimate then
    .error (.binIdOutOfRange (Binary64.toInt64 estimate + .ofNat BinId.centerValue).toInt)
  else BinId.above (corrected edge price (Binary64.toInt64 estimate).toInt)

end

/-- The functions on doubles that depend on the machine. -/
structure Platform where
  log : Float → Float
  floor : Float → Float
  power : Float → Int → Float

/-- The functions of the machine that runs the program. -/
def native : Platform := ⟨Float.log, Float.floor, fun base exponent => base.pow (Float.ofInt exponent)⟩

/-- The ratio of neighbouring bin edges. -/
def base (binStep : UInt16) : Except Error Float :=
  if binStep = 0 then .error (.invalidBinStep 0) else .ok (1.0 + binStep.toNat.toFloat / 10000.0)

def isPrice (price : Float) : Bool := price.isFinite && 0.0 < price

namespace Platform
variable (p : Platform)

/-- The exponent of a price, which rounding may put into a neighbouring bin. -/
def estimate (base price : Float) : Float := p.floor (p.log price / p.log base)

def toBin (price : Float) (binStep : UInt16) : Except Error BinId := do
  let base ← base binStep
  if !isPrice price then throw (.invalidPrice (Binary64.text price))
  locate (p.power base) price (p.estimate base price)

/-- The lower price edge of a bin. -/
def ofBin (id : BinId) (binStep : UInt16) : Except Error Float := do
  return p.power (← base binStep) id.exponent

def bounds (id : BinId) (binStep : UInt16) : Except Error (Float × Float) := do
  let base ← base binStep
  return (p.power base id.exponent, p.power base (id.exponent + 1))

end Platform

def toBin (price : Float) (binStep : UInt16) : Except Error BinId := native.toBin price binStep

def ofBin (id : BinId) (binStep : UInt16) : Except Error Float := native.ofBin id binStep

def bounds (id : BinId) (binStep : UInt16) : Except Error (Float × Float) := native.bounds id binStep

/-- Machine units of Y for a machine unit of X, when one human unit of X costs one of Y. -/
def decimalShift (decimalsX decimalsY : Nat) : Float :=
  Binary64.powInt 10.0 ((decimalsY : Int) - decimalsX)

/-- The bin of a price in human units. -/
def humanToBin (price : Float) (binStep : UInt16) (decimalsX decimalsY : Nat) : Except Error BinId :=
  if !isPrice price then .error (.invalidPrice (Binary64.text price))
  else toBin (price * decimalShift decimalsX decimalsY) binStep

def binToHuman (id : BinId) (binStep : UInt16) (decimalsX decimalsY : Nat) : Except Error Float := do
  return (← ofBin id binStep) / decimalShift decimalsX decimalsY

end LiquidityBook.Price
