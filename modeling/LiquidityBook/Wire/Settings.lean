import LiquidityBook.Settings.Basic
import LiquidityBook.Wire.Token

/-! The JSON form of settings. Fields that are left out have their initial values, and contracts that are
left out are absent. -/
namespace LiquidityBook

open Json in
def ChainSettings.ofJson? (j : Json) : Option ChainSettings := do
  let [chainId, lcdUrl, rpcUrl] ← j.leadingFields? ["chain_id", "lcd_url", "rpc_url"] | none
  let d := ChainSettings.initial
  return ⟨← defaulted asText? d.chainId chainId, ← defaulted asText? d.lcdUrl lcdUrl,
    ← defaulted asText? d.rpcUrl rpcUrl⟩

def ChainSettings.toJson (c : ChainSettings) : Json :=
  .record [("chain_id", .text c.chainId), ("lcd_url", .text c.lcdUrl), ("rpc_url", .text c.rpcUrl)]

open Json in
def ContractSettings.ofJson? (j : Json) : Option ContractSettings := do
  let [lbFactory, lbRouter] ← j.leadingFields? ["lb_factory", "lb_router"] | none
  return ⟨← optional ContractRef.ofJson? lbFactory, ← optional ContractRef.ofJson? lbRouter⟩

def ContractSettings.toJson (c : ContractSettings) : Json :=
  .record [("lb_factory", .ofOption ContractRef.toJson c.lbFactory),
    ("lb_router", .ofOption ContractRef.toJson c.lbRouter)]

open Json in
def GasSettings.ofJson? (j : Json) : Option GasSettings := do
  let [addLiquidity, removeLiquidity, swap, createPair, setViewingKey] ←
    j.leadingFields? ["add_liquidity", "remove_liquidity", "swap", "create_pair", "set_viewing_key"] | none
  let d := GasSettings.initial
  return ⟨← defaulted asUInt64? d.addLiquidity addLiquidity,
    ← defaulted asUInt64? d.removeLiquidity removeLiquidity, ← defaulted asUInt64? d.swap swap,
    ← defaulted asUInt64? d.createPair createPair, ← defaulted asUInt64? d.setViewingKey setViewingKey⟩

def GasSettings.toJson (g : GasSettings) : Json :=
  .record (g.named.map fun (name, n) => (name, .ofUInt64 n))

open Json in
def DefaultSettings.ofJson? (j : Json) : Option DefaultSettings := do
  let [slippageBps, idSlippage, binStep, deadlineWindowSecs, viewingKeyPadding] ←
    j.leadingFields? ["slippage_bps", "id_slippage", "bin_step", "deadline_window_secs",
      "viewing_key_padding"] | none
  let d := DefaultSettings.initial
  return ⟨← defaulted asUInt16? d.slippageBps slippageBps, ← defaulted asUInt32? d.idSlippage idSlippage,
    ← defaulted asUInt16? d.binStep binStep,
    ← defaulted asUInt64? d.deadlineWindowSecs deadlineWindowSecs,
    ← defaulted asText? d.viewingKeyPadding viewingKeyPadding⟩

def DefaultSettings.toJson (d : DefaultSettings) : Json :=
  .record [("slippage_bps", .ofUInt16 d.slippageBps), ("id_slippage", .ofUInt32 d.idSlippage),
    ("bin_step", .ofUInt16 d.binStep), ("deadline_window_secs", .ofUInt64 d.deadlineWindowSecs),
    ("viewing_key_padding", .text d.viewingKeyPadding)]

open Json in
def Settings.ofJson? (j : Json) : Option Settings := do
  let [chain, contracts, tokens, gas, defaults] ←
    j.leadingFields? ["chain", "contracts", "tokens", "gas", "defaults"] | none
  let d := Settings.initial
  return ⟨← defaulted ChainSettings.ofJson? d.chain chain,
    ← defaulted ContractSettings.ofJson? d.contracts contracts,
    ← defaulted (asList? Token.ofJson?) d.tokens tokens, ← defaulted GasSettings.ofJson? d.gas gas,
    ← defaulted DefaultSettings.ofJson? d.defaults defaults⟩

def Settings.toJson (s : Settings) : Json :=
  .record [("chain", s.chain.toJson), ("contracts", s.contracts.toJson),
    ("tokens", .ofList Token.toJson s.tokens), ("gas", s.gas.toJson), ("defaults", s.defaults.toJson)]

end LiquidityBook
