import LiquidityBook.Command.Basic
import LiquidityBook.Price
import LiquidityBook.Settings.Basic

/-! What commands work with: the settings, the tokens and the clock. -/
namespace LiquidityBook

/-- Why a command prints nothing. -/
inductive CommandError where
  | client (cause : Error)
  | settings (cause : SettingsError)
  | tokenCount (count : Nat)
  | noActiveBin
  | invalidPosition (amount : String)
  | clockTooEarly
  /-- A sum does not fit its width, and the program is aborted there. -/
  | overflow
deriving DecidableEq

def CommandError.message : CommandError → String
  | client cause => cause.message
  | settings cause => cause.message
  | tokenCount count => s!"expected two tokens, got {count}"
  | noActiveBin => "either --price or --active-id is required"
  | invalidPosition amount => s!"LB-token amount '{amount}' is not an integer"
  | clockTooEarly => "System clock is before 1970"
  | overflow => "attempt to add with overflow"

namespace Command

/-- What commands work with. -/
structure Context where
  settings : Settings
  registry : TokenRegistry
  /-- The seconds since 1970. -/
  now : Int
  /-- Whether overflow is checked. Where it is not, a sum that does not fit its width wraps around. -/
  checked : Bool

def ofClient {α : Type} (r : Except Error α) : Except CommandError α := r.mapError .client

/-- The bin that is named, or the one that holds the price that is named. -/
def activeBin (pair : Pair) : Option ActiveBin → Except CommandError BinId
  | some (.id n) => ofClient (BinId.ofNat n.toNat)
  | some (.price p) =>
    ofClient (Price.humanToBin p pair.binStep pair.tokenX.decimals.toNat pair.tokenY.decimals.toNat)
  | none => .error .noActiveBin

namespace Context

def ofSettings (settings : Settings) (now : Int) (checked : Bool) : Except SettingsError Context := do
  return ⟨settings, ← settings.registry, now, checked⟩

def token (c : Context) (name : String) : Except CommandError Token := ofClient (c.registry.resolve name)

def binStep (c : Context) (given : Option UInt16) : UInt16 := given.getD c.settings.defaults.binStep

def slippage (c : Context) (given : Option UInt16) : Nat := (given.getD c.settings.defaults.slippageBps).toNat

def pair (c : Context) (p : PairChoice) : Except CommandError Pair := do
  let tokenX ← c.token p.tokenX
  let tokenY ← c.token p.tokenY
  ofClient (Pair.ofTokens tokenX tokenY (c.binStep p.binStep))

def decimals? (c : Context) : List String → Except CommandError (Option (Nat × Nat))
  | [] => .ok none
  | [x, y] => do return some ((← c.token x).decimals.toNat, (← c.token y).decimals.toNat)
  | names => .error (.tokenCount names.length)

def decimals (c : Context) : AmountScale → Except CommandError Nat
  | .ofToken name => (c.token name).map (·.decimals.toNat)
  | .decimals n => .ok n.toNat

/-- The deadline that is given, or else the end of the window that starts now. A window may be so long that its end does
not fit 64 bits. -/
def deadline (c : Context) : Option UInt64 → Except CommandError UInt64
  | some d => .ok d
  | none =>
    let window := c.settings.defaults.deadlineWindowSecs
    if c.now < 0 then .error .clockTooEarly
    else if c.checked ∧ 2 ^ 64 ≤ c.now.toNat + window.toNat then .error .overflow
    else .ok (UInt64.ofNat c.now.toNat + window)

end Context

end Command

end LiquidityBook
