import LiquidityBook.Binary64.Text
import LiquidityBook.Settings.Basic
import LiquidityBook.Settings.Document

/-! Reading settings out of a document. A section is a table, or a list with its fields in order; a
field takes values of other types as far as they have a meaning for it. -/
namespace LiquidityBook

namespace Setting

/-- The fields of a section, as far as they are there. Other entries and items are passed over. -/
def fields? (names : List String) : Setting → Option (List (Option Setting))
  | table entries => some (names.map (Table.find? entries))
  | list items => some ((List.range names.length).map fun n => items[n]?)
  | _ => none

/-- The nearest natural number within 64 bits, a half going up. A NaN counts as zero, as every
negative number does. -/
def roundFloat (x : Float) : Nat :=
  match Binary64.parts? x with
  | none | some (true, _) => 0
  | some (false, .infinite) => 2 ^ 64 - 1
  | some (false, .finite significand exponent) =>
    min (2 ^ 64 - 1) (if 0 ≤ exponent then significand * 2 ^ exponent.toNat
      else (2 * significand + 2 ^ exponent.natAbs) / 2 ^ (exponent.natAbs + 1))

/-- A natural number. Booleans and the words for them count as one and zero. -/
def nat? : Setting → Option Nat
  | integer n => if 0 ≤ n then some n.toNat else none
  | bool b => some (if b then 1 else 0)
  | float x => some (roundFloat x)
  | text s =>
    match String.ofList (s.toList.map Char.toLower) with
    | "true" | "on" | "yes" => some 1
    | "false" | "off" | "no" => some 0
    | _ => Digits.readNat? s.toList
  | _ => none

def natBelow? (bits : Nat) (s : Setting) : Option Nat := do
  let n ← s.nat?
  if n < 2 ^ bits then some n else none

def asUInt8? (s : Setting) : Option UInt8 := (s.natBelow? 8).map UInt8.ofNat

def asUInt16? (s : Setting) : Option UInt16 := (s.natBelow? 16).map UInt16.ofNat

def asUInt32? (s : Setting) : Option UInt32 := (s.natBelow? 32).map UInt32.ofNat

def asUInt64? (s : Setting) : Option UInt64 := (s.natBelow? 64).map UInt64.ofNat

/-- A text; other single values count as theirs. -/
def asText? : Setting → Option String
  | text s => some s
  | integer n => some (toString n)
  | bool b => some (if b then "true" else "false")
  | float x => some (Binary64.text x)
  | _ => none

def asList? {α : Type} (f : Setting → Option α) : Setting → Option (List α)
  | list items => items.mapM f
  | _ => none

/-- A value, unless it is absent. -/
def optional? {α : Type} (f : Setting → Option α) : Setting → Option (Option α)
  | absent => some none
  | s => (f s).map some

def required {α : Type} (f : Setting → Option α) (field : Option Setting) : Option α := field.bind f

def defaulted {α : Type} (f : Setting → Option α) (value : α) : Option Setting → Option α
  | none => some value
  | some s => f s

end Setting

open Setting

def ContractRef.ofSetting? (s : Setting) : Option ContractRef := do
  let [address, codeHash] ← s.fields? ["address", "code_hash"] | none
  return ⟨← required asText? address, ← required asText? codeHash⟩

def Token.ofSetting? (s : Setting) : Option Token := do
  let [address, codeHash, symbol, decimals] ← s.fields? ["address", "code_hash", "symbol", "decimals"] | none
  return ⟨← required asText? address, ← required asText? codeHash, ← required asText? symbol,
    ← required asUInt8? decimals⟩

def ChainSettings.ofSetting? (s : Setting) : Option ChainSettings := do
  let [chainId, lcdUrl, rpcUrl] ← s.fields? ["chain_id", "lcd_url", "rpc_url"] | none
  let d := ChainSettings.initial
  return ⟨← defaulted asText? d.chainId chainId, ← defaulted asText? d.lcdUrl lcdUrl,
    ← defaulted asText? d.rpcUrl rpcUrl⟩

def ContractSettings.ofSetting? (s : Setting) : Option ContractSettings := do
  let [lbFactory, lbRouter] ← s.fields? ["lb_factory", "lb_router"] | none
  let contract := defaulted (optional? ContractRef.ofSetting?) .none
  return ⟨← contract lbFactory, ← contract lbRouter⟩

def GasSettings.ofSetting? (s : Setting) : Option GasSettings := do
  let [addLiquidity, removeLiquidity, swap, createPair, setViewingKey] ←
    s.fields? ["add_liquidity", "remove_liquidity", "swap", "create_pair", "set_viewing_key"] | none
  let d := GasSettings.initial
  return ⟨← defaulted asUInt64? d.addLiquidity addLiquidity,
    ← defaulted asUInt64? d.removeLiquidity removeLiquidity, ← defaulted asUInt64? d.swap swap,
    ← defaulted asUInt64? d.createPair createPair, ← defaulted asUInt64? d.setViewingKey setViewingKey⟩

def DefaultSettings.ofSetting? (s : Setting) : Option DefaultSettings := do
  let [slippageBps, idSlippage, binStep, deadlineWindowSecs, viewingKeyPadding] ←
    s.fields? ["slippage_bps", "id_slippage", "bin_step", "deadline_window_secs",
      "viewing_key_padding"] | none
  let d := DefaultSettings.initial
  return ⟨← defaulted asUInt16? d.slippageBps slippageBps, ← defaulted asUInt32? d.idSlippage idSlippage,
    ← defaulted asUInt16? d.binStep binStep,
    ← defaulted asUInt64? d.deadlineWindowSecs deadlineWindowSecs,
    ← defaulted asText? d.viewingKeyPadding viewingKeyPadding⟩

def Settings.ofSetting? (s : Setting) : Option Settings := do
  let [chain, contracts, tokens, gas, defaults] ←
    s.fields? ["chain", "contracts", "tokens", "gas", "defaults"] | none
  let d := Settings.initial
  return ⟨← defaulted ChainSettings.ofSetting? d.chain chain,
    ← defaulted ContractSettings.ofSetting? d.contracts contracts,
    ← defaulted (asList? Token.ofSetting?) d.tokens tokens, ← defaulted GasSettings.ofSetting? d.gas gas,
    ← defaulted DefaultSettings.ofSetting? d.defaults defaults⟩

end LiquidityBook
