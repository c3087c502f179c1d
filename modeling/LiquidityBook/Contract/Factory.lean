import LiquidityBook.Wire.Message

/-! Questions to the factory: which contract serves a pair, and the preset behind a bin step. Each
comes with the queries that were sent for it. -/
namespace LiquidityBook

/-- Sends a query to a contract and waits for its answer. -/
abbrev Querier := ContractRef → QueryMsg → Except Error Json

/-- A result with the queries sent for it. -/
abbrev Queried (α : Type) := Except Error α × List (ContractRef × QueryMsg)

namespace Factory

/-- Sends one query; an answer that does not parse is a schema violation. -/
def ask {α : Type} (read : Json → Option α) (querier : Querier) (factory : ContractRef) (msg : QueryMsg) :
    Queried α :=
  let result := match querier factory msg with
    | .error e => .error e
    | .ok answer =>
      match read answer with
      | some a => .ok a
      | none => .error (.schemaViolation (.unexpectedAnswer msg.kind))
  (result, [(factory, msg)])

/-- The information has to be about the bin step asked for, in both places that name one. -/
def checkBinStep (pair : Pair) (info : LbPairInformation) : Except Error LbPairInformation :=
  if info.binStep = pair.binStep ∧ info.lbPair.binStep = pair.binStep then .ok info
  else .error (.schemaViolation (.otherBinStep info.lbPair.binStep.toNat pair.binStep.toNat))

def pairInformation (querier : Querier) (factory : ContractRef) (pair : Pair) : Queried LbPairInformation :=
  let (result, queries) := ask LbPairInformationResponse.ofAnswer? querier factory (.ofPair pair)
  (result.bind fun r => checkBinStep pair r.lbPairInformation, queries)

def resolvePairContract (querier : Querier) (factory : ContractRef) (pair : Pair) : Queried ContractRef :=
  let (result, queries) := pairInformation querier factory pair
  (result.map (·.lbPair.contract), queries)

def preset (querier : Querier) (factory : ContractRef) (binStep : UInt16) : Queried PresetResponse :=
  match QueryMsg.ofBinStep binStep with
  | .ok msg => ask PresetResponse.ofAnswer? querier factory msg
  | .error e => (.error e, [])

end Factory

end LiquidityBook
