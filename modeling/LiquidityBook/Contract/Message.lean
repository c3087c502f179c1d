import LiquidityBook.Allocation
import LiquidityBook.Text

/-! The messages and queries of the pair, router, factory and token contracts, and how they are made
from worked-out plans. Amounts and distributions travel as decimal texts. -/
namespace LiquidityBook

structure LiquidityParameters where
  tokenX : TokenType
  tokenY : TokenType
  binStep : UInt16
  amountX : String
  amountY : String
  amountXMin : String
  amountYMin : String
  activeIdDesired : UInt32
  idSlippage : UInt32
  deltaIds : List Int32
  distributionX : List String
  distributionY : List String
  deadline : UInt64
deriving DecidableEq

/-- What a plan asks for, to be done before the deadline. -/
def LiquidityParameters.ofPlan (plan : AllocationPlan) (deadline : UInt64) : LiquidityParameters where
  tokenX := plan.pair.tokenX.tokenType
  tokenY := plan.pair.tokenY.tokenType
  binStep := plan.pair.binStep
  amountX := plan.amountX.text
  amountY := plan.amountY.text
  amountXMin := plan.amountXMin.text
  amountYMin := plan.amountYMin.text
  activeIdDesired := UInt32.ofNat plan.desiredActiveId.value
  idSlippage := plan.idSlippage
  deltaIds := plan.deltaIds
  distributionX := plan.bins.map (·.distributionX.text)
  distributionY := plan.bins.map (·.distributionY.text)
  deadline

structure RemoveLiquidityParams where
  tokenX : TokenType
  tokenY : TokenType
  binStep : UInt16
  amountXMin : String
  amountYMin : String
  ids : List UInt32
  amounts : List String
  deadline : UInt64
deriving DecidableEq

/-- A message that changes the state of a contract. -/
inductive ExecuteMsg where
  | addLiquidity (liquidityParameters : LiquidityParameters)
  | removeLiquidity (removeLiquidityParams : RemoveLiquidityParams)
  | swap (swapForY : Bool) (recipient amountReceived : String)
  | createLbPair (tokenX tokenY : TokenType) (activeId : UInt32) (binStep : UInt16)
  | setViewingKey (key padding : String)
deriving DecidableEq

/-- A question to a contract. -/
inductive QueryMsg where
  | balance (address key : String)
  | getLbPairInformation (tokenA tokenB : TokenType) (binStep : UInt16)
  | getPreset (binStep : UInt16)
deriving DecidableEq

/-- What a token contract answers to a balance query. -/
inductive QueryAnswer where
  | balance (amount : String)
  | viewingKeyError (msg : String)
deriving DecidableEq

/-- A deployed pair as the factory lists it. -/
structure LbPair where
  tokenX : TokenType
  tokenY : TokenType
  binStep : UInt16
  contract : ContractRef
deriving DecidableEq

structure LbPairInformation where
  binStep : UInt16
  lbPair : LbPair
  createdByOwner : Bool
  ignoredForRouting : Bool
deriving DecidableEq

/-- The factory's answer about a pair. -/
structure LbPairInformationResponse where
  lbPairInformation : LbPairInformation
deriving DecidableEq

/-- The fees and the volatility settings of a bin step. -/
structure PresetResponse where
  baseFactor : UInt16
  filterPeriod : UInt16
  decayPeriod : UInt16
  reductionFactor : UInt16
  variableFeeControl : UInt32
  protocolShare : UInt16
  maxVolatilityAccumulator : UInt32
  isOpen : Bool
deriving DecidableEq

namespace ExecuteMsg

def kind : ExecuteMsg → String
  | addLiquidity .. => "add_liquidity"
  | removeLiquidity .. => "remove_liquidity"
  | swap .. => "swap"
  | createLbPair .. => "create_lb_pair"
  | setViewingKey .. => "set_viewing_key"

/-- A message needs a time after which it is void. -/
def checkDeadline (deadline : UInt64) : Except Error Unit :=
  (Error.schemaViolation .zeroDeadline).when (deadline = 0)

def ofAllocation (plan : AllocationPlan) (deadline : UInt64) : Except Error ExecuteMsg := do
  (Error.schemaViolation .addWithoutBins).when plan.bins.isEmpty
  checkDeadline deadline
  return .addLiquidity (.ofPlan plan deadline)

theorem ofAllocation_eq_ok_iff {plan : AllocationPlan} {deadline : UInt64} {m : ExecuteMsg} :
    ofAllocation plan deadline = .ok m ↔
      plan.bins ≠ [] ∧ deadline ≠ 0 ∧ .addLiquidity (.ofPlan plan deadline) = m := by
  simp only [ofAllocation, checkDeadline, Error.bind_eq_ok_iff, Error.when_eq_ok_iff, exists_const,
    List.isEmpty_iff, ne_eq]
  exact and_congr_right fun _ => and_congr_right fun _ => ⟨Except.ok.inj, congrArg _⟩

def ofRemoval (plan : RemovalPlan) (deadline : UInt64) : Except Error ExecuteMsg := do
  (Error.schemaViolation .removeWithoutBins).when plan.ids.isEmpty
  (Error.schemaViolation (.idsWithoutAmounts plan.ids.length plan.amounts.length)).when
    (plan.ids.length ≠ plan.amounts.length)
  checkDeadline deadline
  return .removeLiquidity {
    tokenX := plan.pair.tokenX.tokenType
    tokenY := plan.pair.tokenY.tokenType
    binStep := plan.pair.binStep
    amountXMin := plan.amountXMin.text
    amountYMin := plan.amountYMin.text
    ids := plan.ids.map (UInt32.ofNat ·.value)
    amounts := plan.amounts.map (·.text)
    deadline }

theorem ofRemoval_eq_ok_iff {plan : RemovalPlan} {deadline : UInt64} {m : ExecuteMsg} :
    ofRemoval plan deadline = .ok m ↔ plan.ids ≠ [] ∧ plan.ids.length = plan.amounts.length ∧ deadline ≠ 0 ∧
      .removeLiquidity {
        tokenX := plan.pair.tokenX.tokenType
        tokenY := plan.pair.tokenY.tokenType
        binStep := plan.pair.binStep
        amountXMin := plan.amountXMin.text
        amountYMin := plan.amountYMin.text
        ids := plan.ids.map (UInt32.ofNat ·.value)
        amounts := plan.amounts.map (·.text)
        deadline } = m := by
  simp only [ofRemoval, checkDeadline, Error.bind_eq_ok_iff, Error.when_eq_ok_iff, exists_const,
    List.isEmpty_iff, ne_eq,
    Decidable.not_not]
  exact and_congr_right fun _ => and_congr_right fun _ => and_congr_right fun _ => ⟨Except.ok.inj, congrArg _⟩

/-- A swap names who gets the tokens. -/
def ofSwap (swapForY : Bool) (recipient : Option String) (amountReceived : Uint256) : Except Error ExecuteMsg :=
  let recipient := (recipient.map Text.trim).getD ""
  if recipient.isEmpty then .error (.schemaViolation .swapWithoutRecipient)
  else .ok (.swap swapForY recipient amountReceived.text)

def ofNewPair (pair : Pair) (activeId : BinId) : ExecuteMsg :=
  .createLbPair pair.tokenX.tokenType pair.tokenY.tokenType (UInt32.ofNat activeId.value) pair.binStep

/-- The error for a malformed key does not show the key. -/
def ofViewingKey (key padding : String) : Except Error ExecuteMsg :=
  if ViewingKey.isValid key then .ok (.setViewingKey key padding)
  else .error (.schemaViolation .malformedViewingKey)

end ExecuteMsg

namespace QueryMsg

def kind : QueryMsg → String
  | balance .. => "balance"
  | getLbPairInformation .. => "get_lb_pair_information"
  | getPreset .. => "get_preset"

def ofBalance (address key : String) : Except Error QueryMsg :=
  if (Text.trim address).isEmpty then .error (.schemaViolation .balanceWithoutAddress)
  else if key.isEmpty then .error (.schemaViolation .balanceWithoutKey)
  else .ok (.balance address key)

def ofPair (pair : Pair) : QueryMsg :=
  .getLbPairInformation pair.tokenX.tokenType pair.tokenY.tokenType pair.binStep

def ofBinStep (binStep : UInt16) : Except Error QueryMsg :=
  if binStep = 0 then .error (.invalidBinStep 0) else .ok (.getPreset binStep)

end QueryMsg

end LiquidityBook
