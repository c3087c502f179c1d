import LiquidityBook.Settings.Basic
import LiquidityBook.Toml.Quoted

/-! Settings as a TOML document, which gives the same settings when it is read. -/
namespace LiquidityBook

private def textLine (name value : String) : String := s!"{name} = {Toml.quote value}"

private def natLine (name : String) (value : Nat) : String := s!"{name} = {value}"

namespace ContractRef

def tomlLines (c : ContractRef) : List String := [textLine "address" c.address, textLine "code_hash" c.codeHash]

end ContractRef

namespace Token

def tomlLines (t : Token) : List String :=
  [textLine "address" t.address, textLine "code_hash" t.codeHash, textLine "symbol" t.symbol,
    natLine "decimals" t.decimals.toNat]

end Token

namespace ContractSettings

/-- A table for each contract there is, and an empty one for all if there is none. -/
def tomlTables (c : ContractSettings) : List (List String) :=
  let contract := fun (name : String) (c : Option ContractRef) =>
    (c.map fun c => s!"[contracts.{name}]" :: c.tomlLines).toList
  match contract "lb_factory" c.lbFactory ++ contract "lb_router" c.lbRouter with
  | [] => [["[contracts]"]]
  | tables => tables

end ContractSettings

namespace Settings

/-- The tables of the document, with the empty list of tokens in front of them if there are none. -/
def tomlTables (s : Settings) : List (List String) :=
  (if s.tokens.isEmpty then [["tokens = []"]] else []) ++
  [["[chain]", textLine "chain_id" s.chain.chainId, textLine "lcd_url" s.chain.lcdUrl,
    textLine "rpc_url" s.chain.rpcUrl]] ++
  s.contracts.tomlTables ++
  s.tokens.map (fun t => "[[tokens]]" :: t.tomlLines) ++
  ["[gas]" :: s.gas.named.map (fun (name, n) => natLine name n.toNat),
    ["[defaults]", natLine "slippage_bps" s.defaults.slippageBps.toNat,
      natLine "id_slippage" s.defaults.idSlippage.toNat, natLine "bin_step" s.defaults.binStep.toNat,
      natLine "deadline_window_secs" s.defaults.deadlineWindowSecs.toNat,
      textLine "viewing_key_padding" s.defaults.viewingKeyPadding]]

/-- TOML has integers below `2 ^ 63`. -/
def isWritable (s : Settings) : Bool :=
  (s.defaults.deadlineWindowSecs :: s.gas.named.map (·.2)).all (·.toNat < 2 ^ 63)

def toToml (s : Settings) : Except SettingsError String :=
  if s.isWritable then
    .ok ("\n\n".intercalate (s.tomlTables.map ("\n".intercalate ·)) ++ "\n")
  else .error .unwritable

end Settings

end LiquidityBook
