import LiquidityBook.Command.Context
import LiquidityBook.Contract.Message
import LiquidityBook.Json.Writer
import LiquidityBook.Settings.Text
import LiquidityBook.Wire.Message

/-! What the commands print. Nothing is sent: a message or a query is printed with the contract it
is for, and a message with its gas limit. -/
namespace LiquidityBook

namespace Command

def envelope (contract : Option ContractRef) (gasLimit : UInt64) (msg : ExecuteMsg) : String :=
  (Json.record [("contract", .ofOption ContractRef.toJson contract), ("gas_limit", .ofUInt64 gasLimit),
    ("msg", msg.toJson)]).pretty

def queryEnvelope (contract : Option ContractRef) (query : QueryMsg) : String :=
  (Json.record [("contract", .ofOption ContractRef.toJson contract), ("query", query.toJson)]).pretty

/-- The amount of a position. The empty text is zero. -/
def positionAmount? (s : String) : Option Uint256 :=
  if s.toList.all Char.isDigit then Uint.ofNat? 256 (Digits.value s.toList) else none

def position (given : UInt32 × String) : Except CommandError BinPosition := do
  let binId ← ofClient (BinId.ofNat given.1.toNat)
  match positionAmount? given.2 with
  | some amount => return ⟨binId, amount⟩
  | none => throw (.invalidPosition given.2)

def addLiquidityMsg (c : Context) (a : AddLiquidity) : Except CommandError ExecuteMsg := do
  let pair ← c.pair a.pair
  let active ← activeBin pair a.active
  let spread ← ofClient a.shape.weights
  let intent : LiquidityIntent := {
    pair
    amountX := a.amountX
    amountY := a.amountY
    spread
    idSlippage := a.idSlippage.getD c.settings.defaults.idSlippage }
  let plan ← ofClient (Allocation.compile intent active (c.slippage a.slippageBps))
  let deadline ← c.deadline a.deadline
  ofClient (ExecuteMsg.ofAllocation plan deadline)

def removeLiquidityMsg (c : Context) (r : RemoveLiquidity) : Except CommandError ExecuteMsg := do
  let pair ← c.pair r.pair
  let positions ← r.positions.mapM position
  let expectedX ← ofClient (Amount.toMachine r.expectedX pair.tokenX.decimals.toNat)
  let expectedY ← ofClient (Amount.toMachine r.expectedY pair.tokenY.decimals.toNat)
  let intent : RemovalIntent := ⟨pair, positions, expectedX, expectedY⟩
  let plan ← ofClient (Allocation.compileRemoval intent (c.slippage r.slippageBps))
  let deadline ← c.deadline r.deadline
  ofClient (ExecuteMsg.ofRemoval plan deadline)

def swapMsg (c : Context) (s : Swap) : Except CommandError ExecuteMsg := do
  let token ← c.token s.token
  let amount ← ofClient (Amount.toMachine s.amountReceived token.decimals.toNat)
  ofClient (ExecuteMsg.ofSwap s.swapForY s.recipient amount)

def createPairMsg (c : Context) (pair : PairChoice) (active : Option ActiveBin) :
    Except CommandError ExecuteMsg := do
  let pair ← c.pair pair
  return .ofNewPair pair (← activeBin pair active)

def run (c : Context) : Command → Except CommandError String
  | priceToId price binStep tokens => do
    let step := c.binStep binStep
    let id ← match ← c.decimals? tokens with
      | some (x, y) => ofClient (Price.humanToBin price step x y)
      | none => ofClient (Price.toBin price step)
    return toString id.value
  | idToPrice id binStep tokens => do
    let step := c.binStep binStep
    let id ← ofClient (BinId.ofNat id.toNat)
    let price ← match ← c.decimals? tokens with
      | some (x, y) => ofClient (Price.binToHuman id step x y)
      | none => ofClient (Price.ofBin id step)
    return Binary64.text price
  | toMachine amount scale => do
    return (← ofClient (Amount.toMachine amount (← c.decimals scale))).text
  | toHuman amount scale precision => do
    ofClient (Amount.toHuman amount (← c.decimals scale) (precision.map (·.toNat)))
  | addLiquidity a => do
    return envelope c.settings.contracts.lbRouter c.settings.gas.addLiquidity (← addLiquidityMsg c a)
  | removeLiquidity r => do
    return envelope c.settings.contracts.lbRouter c.settings.gas.removeLiquidity (← removeLiquidityMsg c r)
  | swap s => do return envelope s.pairContract c.settings.gas.swap (← swapMsg c s)
  | createPair pair active => do
    return envelope c.settings.contracts.lbFactory c.settings.gas.createPair (← createPairMsg c pair active)
  | pairQuery pair => do
    return queryEnvelope c.settings.contracts.lbFactory (.ofPair (← c.pair pair))
  | presetQuery binStep => do
    return queryEnvelope c.settings.contracts.lbFactory (← ofClient (QueryMsg.ofBinStep (c.binStep binStep)))
  | config => c.settings.toToml.mapError .settings

end Command

end LiquidityBook
