import LiquidityBook.Spread
import LiquidityBook.Token

/-! The commands of the toolkit: conversions, and messages and queries for the contracts. -/
namespace LiquidityBook

/-- The decimals of an amount, or the token that has them. -/
inductive AmountScale where
  | ofToken (name : String)
  | decimals (n : UInt8)

/-- A pair by the names of its tokens. -/
structure PairChoice where
  tokenX : String
  tokenY : String
  binStep : Option UInt16

/-- The active bin, or a price in human units that it holds. -/
inductive ActiveBin where
  | id (n : UInt32)
  | price (p : Float)

structure AddLiquidity where
  pair : PairChoice
  active : Option ActiveBin
  amountX : String
  amountY : String
  shape : Shape
  slippageBps : Option UInt16
  idSlippage : Option UInt32
  deadline : Option UInt64

structure RemoveLiquidity where
  pair : PairChoice
  /-- Bins and the amounts to take out of them. -/
  positions : List (UInt32 × String)
  expectedX : String
  expectedY : String
  slippageBps : Option UInt16
  deadline : Option UInt64

structure Swap where
  swapForY : Bool
  recipient : Option String
  amountReceived : String
  token : String
  pairContract : Option ContractRef

inductive Command where
  | priceToId (price : Float) (binStep : Option UInt16) (tokens : List String)
  | idToPrice (id : UInt32) (binStep : Option UInt16) (tokens : List String)
  | toMachine (amount : String) (scale : AmountScale)
  | toHuman (amount : String) (scale : AmountScale) (precision : Option UInt8)
  | addLiquidity (c : AddLiquidity)
  | removeLiquidity (c : RemoveLiquidity)
  | swap (c : Swap)
  | createPair (pair : PairChoice) (active : Option ActiveBin)
  | pairQuery (pair : PairChoice)
  | presetQuery (binStep : Option UInt16)
  | config

end LiquidityBook
