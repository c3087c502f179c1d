import LiquidityBook.Error

/-! Tokens, the contracts that hold them, and the pairs they are traded in. -/
namespace LiquidityBook

/-- A deployed contract and the hash of its code. -/
structure ContractRef where
  address : String
  codeHash : String
deriving DecidableEq, Inhabited

/-- A token with its contract, its symbol and the number of decimals of its human unit. -/
structure Token where
  address : String
  codeHash : String
  symbol : String
  decimals : UInt8
deriving DecidableEq, Inhabited

/-- A token as contract messages name it. -/
inductive TokenType where
  | customToken (contractAddr tokenCodeHash : String)
deriving DecidableEq, Inhabited

namespace Token

def contract (t : Token) : ContractRef := ⟨t.address, t.codeHash⟩

def tokenType (t : Token) : TokenType := .customToken t.address t.codeHash

def display (t : Token) : String := s!"{t.symbol} ({t.address})"

end Token

/-- Two tokens and the step between their price bins, in basis points. -/
structure Pair where
  tokenX : Token
  tokenY : Token
  binStep : UInt16
deriving DecidableEq, Inhabited

namespace Pair

/-- A pair for trading: its bins are of positive width. -/
def ofTokens (tokenX tokenY : Token) (binStep : UInt16) : Except Error Pair :=
  if binStep = 0 then .error (.invalidBinStep 0) else .ok ⟨tokenX, tokenY, binStep⟩

end Pair

end LiquidityBook
