import LiquidityBook.Settings.Schema
import LiquidityBook.Settings.Source
import LiquidityBook.Toml.Reader

/-! Loading settings: the built-in ones, over them a file if one is named, over that the environment. -/
namespace LiquidityBook

/-- What the path of a user's file leads to. -/
inductive UserFile where
  | unnamed
  | missing
  | text (contents : String)

/-- A file that is named has to be there and to be TOML. -/
def UserFile.layer : UserFile → Except SettingsError Layer
  | unnamed => .ok []
  | missing => .error .unreadable
  | text contents =>
    match Toml.parse? contents with
    | some entries => .ok (.ofToml entries)
    | none => .error .unreadable

namespace Settings

/-- The layer that gives every value of some settings. -/
def toLayer (s : Settings) : Layer :=
  let number := fun n : Nat => Setting.integer n
  let contract := fun (name : String) (c : Option ContractRef) =>
    let fields := fun c : ContractRef => [("address", .text c.address), ("code_hash", .text c.codeHash)]
    (c.map fun c => (name, Setting.table (fields c))).toList
  let token := fun (t : Token) => Setting.table [("address", .text t.address),
    ("code_hash", .text t.codeHash), ("symbol", .text t.symbol), ("decimals", number t.decimals.toNat)]
  [([.entry "chain"], .table [("chain_id", .text s.chain.chainId), ("lcd_url", .text s.chain.lcdUrl),
      ("rpc_url", .text s.chain.rpcUrl)]),
    ([.entry "contracts"], .table
      (contract "lb_factory" s.contracts.lbFactory ++ contract "lb_router" s.contracts.lbRouter)),
    ([.entry "tokens"], .list (s.tokens.map token)),
    ([.entry "gas"], .table (s.gas.named.map fun (name, n) => (name, number n.toNat))),
    ([.entry "defaults"], .table [("slippage_bps", number s.defaults.slippageBps.toNat),
      ("id_slippage", number s.defaults.idSlippage.toNat), ("bin_step", number s.defaults.binStep.toNat),
      ("deadline_window_secs", number s.defaults.deadlineWindowSecs.toNat),
      ("viewing_key_padding", .text s.defaults.viewingKeyPadding)])]

/-- The document of all sources. Variables count whose names start with the prefix and two
underscores. -/
def document (envPrefix : String) (given : Layer) (env : List (String × String)) : Setting :=
  Layer.stack [builtin.toLayer, given, .ofEnvironment envPrefix env]

def ofDocument (document : Setting) : Except SettingsError Settings :=
  match ofSetting? document with
  | none => .error .mistyped
  | some s => do
    s.validate
    return s

def load (envPrefix : String) (file : UserFile) (env : List (String × String)) :
    Except SettingsError Settings := do
  ofDocument (document envPrefix (← file.layer) env)

def envPrefix : String := "LB"

end Settings

end LiquidityBook
