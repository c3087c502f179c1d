import LiquidityBook.Registry

/-! What a client is configured with: the chain, the contracts, the tokens, and what messages get
when a command does not say it. Settings in use have passed `validate`. -/
namespace LiquidityBook

structure ChainSettings where
  chainId : String
  lcdUrl : String
  rpcUrl : String
deriving DecidableEq

structure ContractSettings where
  lbFactory : Option ContractRef
  lbRouter : Option ContractRef
deriving DecidableEq

/-- The gas limit of each kind of message. -/
structure GasSettings where
  addLiquidity : UInt64
  removeLiquidity : UInt64
  swap : UInt64
  createPair : UInt64
  setViewingKey : UInt64
deriving DecidableEq

structure DefaultSettings where
  slippageBps : UInt16
  idSlippage : UInt32
  binStep : UInt16
  /-- The seconds from now after which a message is void. -/
  deadlineWindowSecs : UInt64
  viewingKeyPadding : String
deriving DecidableEq

structure Settings where
  chain : ChainSettings
  contracts : ContractSettings
  tokens : List Token
  gas : GasSettings
  defaults : DefaultSettings
deriving DecidableEq

/-- Why there are no settings to work with. -/
inductive SettingsError where
  /-- A source cannot be read. -/
  | unreadable
  /-- A value is not of its field's type. -/
  | mistyped
  | slippageAboveWhole (bps : Nat)
  | zeroBinStep
  | zeroGas (name : String)
  /-- A number is too large to be written. -/
  | unwritable
  | invalidTokens (cause : Error)
deriving DecidableEq

def SettingsError.message : SettingsError → String
  | unreadable => "Failed to build configuration"
  | mistyped => "Failed to deserialize configuration"
  | slippageAboveWhole bps => s!"defaults.slippage_bps must be at most 10000, got {bps}"
  | zeroBinStep => "defaults.bin_step must be greater than zero"
  | zeroGas name => s!"gas.{name} must be greater than zero"
  | unwritable => "Failed to render settings as TOML"
  | invalidTokens _ => "Invalid token list in configuration"

def ChainSettings.initial : ChainSettings where
  chainId := "pulsar-2"
  lcdUrl := "https://lcd.testnet.secretsaturn.net"
  rpcUrl := "https://rpc.testnet.secretsaturn.net"

def ContractSettings.none : ContractSettings := ⟨.none, .none⟩

namespace GasSettings

def initial : GasSettings where
  addLiquidity := 2000000
  removeLiquidity := 2000000
  swap := 2000000
  createPair := 500000
  setViewingKey := 40000

def named (g : GasSettings) : List (String × UInt64) :=
  [("add_liquidity", g.addLiquidity), ("remove_liquidity", g.removeLiquidity), ("swap", g.swap),
    ("create_pair", g.createPair), ("set_viewing_key", g.setViewingKey)]

end GasSettings

def DefaultSettings.initial : DefaultSettings where
  slippageBps := 500
  idSlippage := 100
  binStep := 100
  deadlineWindowSecs := 1200
  viewingKeyPadding := "one amber club"

namespace Settings

/-- The values of fields that are left out. -/
def initial : Settings := ⟨.initial, .none, [], .initial, .initial⟩

/-- The settings that a client comes with. -/
def builtin : Settings where
  chain := .initial
  contracts :=
    { lbFactory := some ⟨"secret1x6umu6kaepx34jgg5jcts96szukuwhtfynnw3h",
        "79b53e4bf420f1aa38cf66a5a209064129c402a2aa31674290eaaa022617ce0f"⟩
      lbRouter := some ⟨"secret1uvm2ak4m70kevkrx4a2gqdea8dcj2jvp8xjr7e",
        "31c78840211a29b5502c80c3d306f87aa475f9b43601582efb73b6ff770e871b"⟩ }
  tokens :=
    [⟨"secret1jm4t9at03y2ffxwqlek9la58m90y7wvr8fvt5x",
        "0bbaa17a6bd4533f5dc3eae14bfd1152891edaabcc0d767f611bb70437b3a159", "TOKENX", 6⟩,
      ⟨"secret108htfk68emyj9ylz5rl9ras36n9usaut0hk795",
        "0bbaa17a6bd4533f5dc3eae14bfd1152891edaabcc0d767f611bb70437b3a159", "TOKENY", 6⟩,
      ⟨"secret18vd8fpwxzck93qlwghaj6arh4p7c5n8978vsyg",
        "9587d60b8e6b078ace12014ceeee089530b9fabcd76535d93666a6c127ad8813", "sSCRT", 6⟩,
      ⟨"secret1gdhgaeq9jvzwyjqc32j7cp00gd6cqpnkmncxd3",
        "db93ffb6ee9d5b924bc8f70e30c73ed809d210bca9b8aaab14eea609b55de166", "AMBER", 6⟩,
      ⟨"secret1yw3dmyk3zw5v0pvhdtgu7wky6hcxvgf5q8t298",
        "5266a630e2b8ef910fb2515e1d3b5be95d4bd48358732788d8fcd984ee966bc1", "SHD", 8⟩,
      ⟨"secret10u3rwj0cc2r04lryaxtkucjhvqw63kqzm5jlxw",
        "680fbb3c8f8eb1c920da13d857daaedaa46ab8f9a8e26e892bb18a16985ec29e", "stkd-SCRT", 6⟩,
      ⟨"secret16xz08fdtkp5m8m6arpfgnehlfl4t86l0p33xg0",
        "b6c896d21e46e037a2a1bca1d55af262d7ae4a5a175af055f3939722626b30c3", "SILK", 6⟩]
  gas := .initial
  defaults := .initial

/-- Refuses values that no message could be made with. -/
def validate (s : Settings) : Except SettingsError Unit :=
  if 10000 < s.defaults.slippageBps.toNat then
    .error (.slippageAboveWhole s.defaults.slippageBps.toNat)
  else if s.defaults.binStep = 0 then .error .zeroBinStep
  else
    match s.gas.named.find? (·.2 = 0) with
    | some (name, _) => .error (.zeroGas name)
    | none => .ok ()

/-- A value of every kind that messages can be made with. -/
structure Valid (s : Settings) : Prop where
  slippage_le : s.defaults.slippageBps.toNat ≤ 10000
  binStep_ne : s.defaults.binStep ≠ 0
  gas_ne : ∀ limit ∈ s.gas.named, limit.2 ≠ 0

theorem validate_eq_ok_iff {s : Settings} {u : Unit} : s.validate = .ok u ↔ s.Valid := by
  constructor
  · intro h
    unfold validate at h
    split at h
    · cases h
    split at h
    · cases h
    split at h
    · cases h
    · rename_i hs hb _ hg
      refine ⟨Nat.not_lt.1 hs, hb, ?_⟩
      simpa using hg
  · intro h
    have hg : s.gas.named.find? (·.2 = 0) = none := by simpa using h.gas_ne
    rw [validate, if_neg (Nat.not_lt.2 h.slippage_le), if_neg h.binStep_ne, hg]

def registry (s : Settings) : Except SettingsError TokenRegistry :=
  (TokenRegistry.ofList s.tokens).mapError .invalidTokens

end Settings

end LiquidityBook
