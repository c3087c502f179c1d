import LiquidityBook.Contract.Message

/-! Sending a message to a contract, and what the chain reports about it. -/
namespace LiquidityBook

/-- One message to one contract. -/
structure TxRequest where
  sender : String
  contract : ContractRef
  msg : ExecuteMsg
  gasLimit : UInt64
deriving DecidableEq

/-- The chain's report; the code zero means success. -/
structure TxResponse where
  code : UInt32
  rawLog : String
  gasUsed : UInt64
  txHash : Option String
deriving DecidableEq

/-- A report as a user is told of it. -/
inductive TxOutcome where
  | success (txHash : Option String) (gasUsed : UInt64)
  | failed (code : UInt32) (rawLog : String) (gasUsed : UInt64)
deriving DecidableEq

namespace TxResponse

def isSuccess (r : TxResponse) : Bool := r.code == 0

def outcome (r : TxResponse) : TxOutcome :=
  if r.isSuccess then .success r.txHash r.gasUsed else .failed r.code r.rawLog r.gasUsed

/-- A report of failure as an error, its log unchanged. -/
def check (r : TxResponse) : Except Error TxResponse :=
  if r.isSuccess then .ok r else .error (.contractRejected r.code.toNat r.rawLog r.gasUsed.toNat)

end TxResponse

/-- Hands a request to a broadcaster once. The requests it was handed come with the result. -/
def submitChecked (broadcast : TxRequest → Except Error TxResponse) (request : TxRequest) :
    Except Error TxResponse × List TxRequest :=
  ((broadcast request).bind TxResponse.check, [request])

end LiquidityBook
