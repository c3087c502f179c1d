import LiquidityBook.Amount
import LiquidityBook.BinId
import LiquidityBook.Distribution
import LiquidityBook.Spread
import LiquidityBook.Token

/-! Deposits and withdrawals, checked and worked out bin by bin. Every amount is rounded toward
zero, so the bins never take more than was offered. -/
namespace LiquidityBook

/-- The part `numerator / denominator` of an amount, rounded down, for a part of at most one. The
split keeps every step below `2 ^ 256`. -/
def Uint.portion {bits : Nat} (a : Uint bits) (numerator denominator : Nat) : Uint bits :=
  let n := min numerator denominator
  ⟨a.toNat / denominator * n + a.toNat % denominator * n / denominator, by
    have hn : n ≤ denominator := Nat.min_le_right _ _
    have h1 : a.toNat / denominator * n ≤ a.toNat / denominator * denominator := Nat.mul_le_mul_left _ hn
    have h2 : a.toNat % denominator * n / denominator ≤ a.toNat % denominator := by
      rcases Nat.eq_zero_or_pos denominator with h | h
      · simp [h]
      · exact Nat.div_le_of_le_mul (by rw [Nat.mul_comm]; exact Nat.mul_le_mul_right _ hn)
    have h3 := Nat.div_add_mod' a.toNat denominator
    have := a.isLt
    omega⟩

/-- The split computes the plain quotient. -/
theorem Uint.toNat_portion {bits : Nat} (a : Uint bits) {numerator denominator : Nat} (h : numerator ≤ denominator)
    (hpos : 0 < denominator) : (a.portion numerator denominator).toNat = a.toNat * numerator / denominator := by
  have hsplit : a.toNat * numerator =
      denominator * (a.toNat / denominator * numerator) + a.toNat % denominator * numerator := by
    rw [← Nat.mul_assoc, ← Nat.add_mul, Nat.div_add_mod]
  rw [hsplit, Nat.mul_add_div hpos]
  simp only [portion, Nat.min_eq_left h]

/-- What is left of an amount after the slippage, in hundredths of a percent, is taken off. -/
def slippageFloor (amount : Uint256) (bps : Nat) : Uint256 := amount.portion (10000 - bps) 10000

/-- A deposit as its owner states it: amounts in human units and a spread. -/
structure LiquidityIntent where
  pair : Pair
  amountX : String
  amountY : String
  spread : List BinWeight
  /-- How far the active bin may move until the deposit is executed. -/
  idSlippage : UInt32
deriving DecidableEq

/-- The share of each side that goes into one bin, and the machine amounts it comes to. -/
structure BinAllocation where
  offset : Int32
  binId : BinId
  distributionX : Uint128
  distributionY : Uint128
  depositX : Uint256
  depositY : Uint256
deriving DecidableEq

/-- A deposit ready to be sent. -/
structure AllocationPlan where
  pair : Pair
  bins : List BinAllocation
  amountX : Uint256
  amountY : Uint256
  amountXMin : Uint256
  amountYMin : Uint256
  desiredActiveId : BinId
  idSlippage : UInt32
deriving DecidableEq

/-- The tokens held in one bin. -/
structure BinPosition where
  binId : BinId
  amount : Uint256
deriving DecidableEq

/-- A withdrawal as its owner states it, with the machine amounts expected back. -/
structure RemovalIntent where
  pair : Pair
  positions : List BinPosition
  expectedX : Uint256
  expectedY : Uint256
deriving DecidableEq

/-- A withdrawal ready to be sent. -/
structure RemovalPlan where
  pair : Pair
  ids : List BinId
  amounts : List Uint256
  amountXMin : Uint256
  amountYMin : Uint256
deriving DecidableEq

namespace AllocationPlan

def deltaIds (p : AllocationPlan) : List Int32 := p.bins.map (·.offset)

def totalX (p : AllocationPlan) : Nat := p.bins.foldl (· + ·.depositX.toNat) 0

def totalY (p : AllocationPlan) : Nat := p.bins.foldl (· + ·.depositY.toNat) 0

end AllocationPlan

namespace Allocation

def checkSlippage (bps : Nat) : Except Error Unit := (Error.invalidSlippage bps).when (10000 < bps)

/-- The first element that repeats an earlier one. -/
def firstRepeat? {α : Type} [DecidableEq α] (seen : List α) : List α → Option α
  | [] => none
  | a :: as => if a ∈ seen then some a else firstRepeat? (a :: seen) as

/-- Nothing is listed twice; the error names the first element that is. -/
def checkDistinct {α : Type} [DecidableEq α] (repeated : α → Error) (as : List α) : Except Error Unit :=
  match firstRepeat? [] as with
  | some a => .error (repeated a)
  | none => .ok ()

/-- How far a side's weights may be from one. -/
def tolerance : Decimal := .ofCoefficient 1 6 (by decide) (by decide)

/-- Whether the number is within the tolerance of one. -/
def nearOne (sum : Decimal) : Bool :=
  let gap := Decimal.sub sum .one
  gap.le tolerance && gap.neg.le tolerance

/-- The weights of a side lie between zero and one and add up to one; if nothing is deposited on
the side, they may also all be zero. -/
def checkSide (side : Char) (weights : List Decimal) (funded : Bool) : Except Error Unit :=
  match weights.find? (!·.inUnit) with
  | some w => .error (.weightMismatch side (.outsideUnit w))
  | none =>
    let sum := Decimal.sum weights
    if nearOne sum || (!funded && sum.isZero) then .ok ()
    else .error (.weightMismatch side (.wrongSum sum))

def distribution (weights : List Decimal) : Except Error (List Nat) := do
  return Distribution.normalize (← weights.mapM Distribution.ofWeight)

def share (amount : Uint256) (weight : Nat) : Uint256 := amount.portion weight Distribution.one

/-- The bin at an offset from the active one, with its shares of both amounts. -/
def allocate (activeId : BinId) (amountX amountY : Uint256) (offset : Int32) (dx dy : Nat) :
    Except Error BinAllocation := do
  return {
    offset
    binId := ← activeId.offset offset.toInt
    distributionX := .clamp 128 dx
    distributionY := .clamp 128 dy
    depositX := share amountX dx
    depositY := share amountY dy }

/-- Works out a deposit around the active bin. -/
def compile (intent : LiquidityIntent) (activeId : BinId) (slippageBps : Nat) : Except Error AllocationPlan := do
  checkSlippage slippageBps
  Error.spreadEmpty.when intent.spread.isEmpty
  let amountX ← Amount.toMachine intent.amountX intent.pair.tokenX.decimals.toNat
  let amountY ← Amount.toMachine intent.amountY intent.pair.tokenY.decimals.toNat
  Error.emptyIntent.when (amountX.toNat = 0 ∧ amountY.toNat = 0)
  checkDistinct (.duplicateBinOffset ·.toInt) (intent.spread.map (·.offset))
  checkSide 'x' (intent.spread.map (·.weightX)) (amountX.toNat ≠ 0)
  checkSide 'y' (intent.spread.map (·.weightY)) (amountY.toNat ≠ 0)
  let distX ← distribution (intent.spread.map (·.weightX))
  let distY ← distribution (intent.spread.map (·.weightY))
  let bins ← (intent.spread.zip (distX.zip distY)).mapM fun (w, dx, dy) =>
    allocate activeId amountX amountY w.offset dx dy
  return {
    pair := intent.pair
    bins
    amountX
    amountY
    amountXMin := slippageFloor amountX slippageBps
    amountYMin := slippageFloor amountY slippageBps
    desiredActiveId := activeId
    idSlippage := intent.idSlippage }

def compileRemoval (intent : RemovalIntent) (slippageBps : Nat) : Except Error RemovalPlan := do
  checkSlippage slippageBps
  Error.spreadEmpty.when intent.positions.isEmpty
  Error.emptyIntent.when (intent.positions.all (·.amount.toNat = 0))
  checkDistinct (.schemaViolation <| .binRepeated ·.value) (intent.positions.map (·.binId))
  return {
    pair := intent.pair
    ids := intent.positions.map (·.binId)
    amounts := intent.positions.map (·.amount)
    amountXMin := slippageFloor intent.expectedX slippageBps
    amountYMin := slippageFloor intent.expectedY slippageBps }

end Allocation

end LiquidityBook
