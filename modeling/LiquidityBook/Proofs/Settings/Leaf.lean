import LiquidityBook.Proofs.Settings.Variable
import LiquidityBook.Settings.Load

/-! The single values of settings, and how a document gives each of them. -/
namespace LiquidityBook

inductive LeafValue where
  | text (s : String)
  | number (n : Nat)
deriving DecidableEq

/-- A single value of settings: the path to it in their document, its bits if it is a number, and what it is. -/
structure Leaf where
  path : List String
  bits : Option Nat
  get : Settings → Option LeafValue

open Setting

namespace Leaf

/-- What a value counts as for a leaf. -/
def read? (leaf : Leaf) (x : Setting) : Option LeafValue :=
  match leaf.bits with
  | none => x.asText?.map .text
  | some bits => (x.natBelow? bits).map .number

def variableName (envPrefix : String) (leaf : Leaf) : String :=
  envPrefix ++ "__" ++ "__".intercalate (leaf.path.map String.toUpper)

/-- A value counts for a leaf, and some settings have there what it counts as. -/
def Holds (leaf : Leaf) (s : Settings) (x : Setting) : Prop := ∃ v, leaf.read? x = some v ∧ leaf.get s = some v

def text (path : List String) (get : Settings → String) : Leaf := ⟨path, none, fun s => some (.text (get s))⟩

def number (bits : Nat) (path : List String) (get : Settings → Nat) : Leaf :=
  ⟨path, some bits, fun s => some (.number (get s))⟩

def contract (name field : String) (get : Settings → Option ContractRef) (part : ContractRef → String) : Leaf :=
  ⟨["contracts", name, field], none, fun s => (get s).map fun c => .text (part c)⟩

end Leaf

namespace Settings

def chainLeaves : List Leaf :=
  [.text ["chain", "chain_id"] (·.chain.chainId), .text ["chain", "lcd_url"] (·.chain.lcdUrl),
    .text ["chain", "rpc_url"] (·.chain.rpcUrl)]

def contractLeaves : List Leaf :=
  [.contract "lb_factory" "address" (·.contracts.lbFactory) (·.address),
    .contract "lb_factory" "code_hash" (·.contracts.lbFactory) (·.codeHash),
    .contract "lb_router" "address" (·.contracts.lbRouter) (·.address),
    .contract "lb_router" "code_hash" (·.contracts.lbRouter) (·.codeHash)]

def gasLeaves : List Leaf :=
  [.number 64 ["gas", "add_liquidity"] (·.gas.addLiquidity.toNat),
    .number 64 ["gas", "remove_liquidity"] (·.gas.removeLiquidity.toNat),
    .number 64 ["gas", "swap"] (·.gas.swap.toNat), .number 64 ["gas", "create_pair"] (·.gas.createPair.toNat),
    .number 64 ["gas", "set_viewing_key"] (·.gas.setViewingKey.toNat)]

def defaultLeaves : List Leaf :=
  [.number 16 ["defaults", "slippage_bps"] (·.defaults.slippageBps.toNat),
    .number 32 ["defaults", "id_slippage"] (·.defaults.idSlippage.toNat),
    .number 16 ["defaults", "bin_step"] (·.defaults.binStep.toNat),
    .number 64 ["defaults", "deadline_window_secs"] (·.defaults.deadlineWindowSecs.toNat),
    .text ["defaults", "viewing_key_padding"] (·.defaults.viewingKeyPadding)]

/-- Every single value of settings, those of tokens apart. -/
def leaves : List Leaf := chainLeaves ++ contractLeaves ++ gasLeaves ++ defaultLeaves

end Settings

namespace Setting

private theorem exists_table_of_find? {y x : Setting} {n : String} (h : y.entries.find? n = some x) :
    ∃ es, y = table es := by
  cases y with
  | table es => exact ⟨es, rfl⟩
  | _ => cases h

private theorem lookup?_cons_cons {n m : String} {path : List String} {s x : Setting}
    (h : s.lookup? (n :: m :: path) = some x) :
    ∃ es, s.entries.find? n = some (table es) ∧ (table es).lookup? (m :: path) = some x := by
  obtain ⟨y, hy, hx⟩ := Option.bind_eq_some_iff.1 h
  obtain ⟨z, hz, -⟩ := Option.bind_eq_some_iff.1 hx
  obtain ⟨es, rfl⟩ := exists_table_of_find? hz
  exact ⟨es, hy, hx⟩

private theorem lookup?_singleton {n : String} {s x : Setting} :
    s.lookup? [n] = some x ↔ s.entries.find? n = some x := by
  cases h : s.entries.find? n <;> simp [lookup?, h]

/-- Whatever a table has under a key is what a section read from the table has there. -/
def IsField {α β : Type} (ofSetting? : Setting → Option α) (key : String) (read? : Setting → Option β)
    (get : α → β) : Prop :=
  ∀ ⦃es a x⦄, ofSetting? (table es) = some a → Table.find? es key = some x → read? x = some (get a)

private theorem defaulted_some {α : Type} (f : Setting → Option α) (value : α) (x : Setting) :
    defaulted f value (some x) = f x := rfl

private theorem required_some {α : Type} (f : Setting → Option α) (x : Setting) : required f (some x) = f x := rfl

end Setting

/-! What is read for each section. -/

theorem ContractRef.fields :
    IsField ofSetting? "address" asText? address ∧ IsField ofSetting? "code_hash" asText? codeHash := by
  refine ⟨?_, ?_⟩
  all_goals
    intro es a x h hx
    simp only [ofSetting?, fields?, List.map_cons, List.map_nil, Option.bind_eq_bind, Option.bind_some,
      Option.bind_eq_some_iff, Option.pure_def, Option.some.injEq, hx, required_some] at h
    obtain ⟨_, _, _, _, rfl⟩ := h
    assumption

theorem ChainSettings.fields : IsField ofSetting? "chain_id" asText? chainId ∧
    IsField ofSetting? "lcd_url" asText? lcdUrl ∧ IsField ofSetting? "rpc_url" asText? rpcUrl := by
  refine ⟨?_, ?_, ?_⟩
  all_goals
    intro es a x h hx
    simp only [ofSetting?, fields?, List.map_cons, List.map_nil, Option.bind_eq_bind, Option.bind_some,
      Option.bind_eq_some_iff, Option.pure_def, Option.some.injEq, hx, defaulted_some] at h
    obtain ⟨_, _, _, _, _, _, rfl⟩ := h
    assumption

theorem ContractSettings.fields : IsField ofSetting? "lb_factory" (optional? ContractRef.ofSetting?) lbFactory ∧
    IsField ofSetting? "lb_router" (optional? ContractRef.ofSetting?) lbRouter := by
  refine ⟨?_, ?_⟩
  all_goals
    intro es a x h hx
    simp only [ofSetting?, fields?, List.map_cons, List.map_nil, Option.bind_eq_bind, Option.bind_some,
      Option.bind_eq_some_iff, Option.pure_def, Option.some.injEq, hx, defaulted_some] at h
    obtain ⟨_, _, _, _, rfl⟩ := h
    assumption

theorem GasSettings.fields : IsField ofSetting? "add_liquidity" asUInt64? addLiquidity ∧
    IsField ofSetting? "remove_liquidity" asUInt64? removeLiquidity ∧ IsField ofSetting? "swap" asUInt64? swap ∧
    IsField ofSetting? "create_pair" asUInt64? createPair ∧
    IsField ofSetting? "set_viewing_key" asUInt64? setViewingKey := by
  refine ⟨?_, ?_, ?_, ?_, ?_⟩
  all_goals
    intro es a x h hx
    simp only [ofSetting?, fields?, List.map_cons, List.map_nil, Option.bind_eq_bind, Option.bind_some,
      Option.bind_eq_some_iff, Option.pure_def, Option.some.injEq, hx, defaulted_some] at h
    obtain ⟨_, _, _, _, _, _, _, _, _, _, rfl⟩ := h
    assumption

theorem DefaultSettings.fields : IsField ofSetting? "slippage_bps" asUInt16? slippageBps ∧
    IsField ofSetting? "id_slippage" asUInt32? idSlippage ∧ IsField ofSetting? "bin_step" asUInt16? binStep ∧
    IsField ofSetting? "deadline_window_secs" asUInt64? deadlineWindowSecs ∧
    IsField ofSetting? "viewing_key_padding" asText? viewingKeyPadding := by
  refine ⟨?_, ?_, ?_, ?_, ?_⟩
  all_goals
    intro es a x h hx
    simp only [ofSetting?, fields?, List.map_cons, List.map_nil, Option.bind_eq_bind, Option.bind_some,
      Option.bind_eq_some_iff, Option.pure_def, Option.some.injEq, hx, defaulted_some] at h
    obtain ⟨_, _, _, _, _, _, _, _, _, _, rfl⟩ := h
    assumption

theorem Settings.fields : IsField ofSetting? "chain" ChainSettings.ofSetting? chain ∧
    IsField ofSetting? "contracts" ContractSettings.ofSetting? contracts ∧
    IsField ofSetting? "tokens" (asList? Token.ofSetting?) tokens ∧
    IsField ofSetting? "gas" GasSettings.ofSetting? gas ∧
    IsField ofSetting? "defaults" DefaultSettings.ofSetting? defaults := by
  refine ⟨?_, ?_, ?_, ?_, ?_⟩
  all_goals
    intro es a x h hx
    simp only [ofSetting?, fields?, List.map_cons, List.map_nil, Option.bind_eq_bind, Option.bind_some,
      Option.bind_eq_some_iff, Option.pure_def, Option.some.injEq, hx, defaulted_some] at h
    obtain ⟨_, _, _, _, _, _, _, _, _, _, rfl⟩ := h
    assumption

namespace Leaf
variable {α : Type} {name key : String} {section? : Setting → Option α} {part : Settings → α}

theorem Holds.get_eq {leaf : Leaf} {s : Settings} {x : Setting} (h : leaf.Holds s x) : leaf.get s = leaf.read? x := by
  obtain ⟨v, hread, hget⟩ := h
  rw [hread, hget]

/-- Settings have at a leaf what stands in their document at the end of its path. -/
def IsRead (leaf : Leaf) : Prop :=
  ∀ ⦃document s x⦄, Settings.ofSetting? document = some s → document.lookup? leaf.path = some x → leaf.Holds s x

private theorem exists_section (hsection : IsField Settings.ofSetting? name section? part) {document x : Setting}
    {s : Settings} {m : String} {path : List String} (h : Settings.ofSetting? document = some s)
    (hx : document.lookup? (name :: m :: path) = some x) :
    ∃ es, section? (table es) = some (part s) ∧ (table es).lookup? (m :: path) = some x := by
  obtain ⟨es, hes, hinside⟩ := lookup?_cons_cons hx
  obtain ⟨root, rfl⟩ := exists_table_of_find? hes
  exact ⟨es, hsection h hes, hinside⟩

private theorem isRead_text {get : α → String} (hsection : IsField Settings.ofSetting? name section? part)
    (hfield : IsField section? key asText? get) : (text [name, key] fun s => get (part s)).IsRead := by
  intro document s x h hx
  obtain ⟨es, hes, hx⟩ := exists_section hsection h hx
  have hread : x.asText? = some (get (part s)) := hfield hes (lookup?_singleton.1 hx)
  exact ⟨.text (get (part s)), congrArg (Option.map LeafValue.text) hread, rfl⟩

private theorem isRead_number {β : Type} {bits : Nat} {ofNat : Nat → β} {toNat : β → Nat} {get : α → β}
    (hround : ∀ n, n < 2 ^ bits → toNat (ofNat n) = n) (hsection : IsField Settings.ofSetting? name section? part)
    (hfield : IsField section? key (fun x => (x.natBelow? bits).map ofNat) get) :
    (number bits [name, key] fun s => toNat (get (part s))).IsRead := by
  intro document s x h hx
  obtain ⟨es, hes, hx⟩ := exists_section hsection h hx
  obtain ⟨n, hn, hget⟩ := Option.map_eq_some_iff.1 (hfield hes (lookup?_singleton.1 hx))
  have hlt : n < 2 ^ bits := by
    obtain ⟨m, -, hm⟩ := Option.bind_eq_some_iff.1 hn
    split at hm
    · exact Option.some.inj hm ▸ ‹_›
    · cases hm
  have hval : toNat (get (part s)) = n := by rw [← hget, hround n hlt]
  exact ⟨.number n, congrArg (Option.map LeafValue.number) hn, congrArg (some ∘ LeafValue.number) hval⟩

private theorem isRead_contract {get : ContractSettings → Option ContractRef} {field : ContractRef → String}
    (hcontract : IsField ContractSettings.ofSetting? name (optional? ContractRef.ofSetting?) get)
    (hfield : IsField ContractRef.ofSetting? key asText? field) :
    (contract name key (fun s => get s.contracts) field).IsRead := by
  intro document s x h hx
  obtain ⟨es, hes, hx⟩ := exists_section Settings.fields.2.1 h hx
  obtain ⟨inner, hinner, hx⟩ := lookup?_cons_cons hx
  obtain ⟨c, hc, hget⟩ := Option.map_eq_some_iff.1 (hcontract hes hinner)
  have hread : x.asText? = some (field c) := hfield hc (lookup?_singleton.1 hx)
  exact ⟨.text (field c), congrArg (Option.map LeafValue.text) hread,
    congrArg (Option.map fun c => LeafValue.text (field c)) hget.symm⟩

private theorem isRead_uint16 {get : α → UInt16} (hsection : IsField Settings.ofSetting? name section? part)
    (hfield : IsField section? key asUInt16? get) : (number 16 [name, key] fun s => (get (part s)).toNat).IsRead :=
  isRead_number (fun _ hn => UInt16.toNat_ofNat_of_lt' hn) hsection hfield

private theorem isRead_uint32 {get : α → UInt32} (hsection : IsField Settings.ofSetting? name section? part)
    (hfield : IsField section? key asUInt32? get) : (number 32 [name, key] fun s => (get (part s)).toNat).IsRead :=
  isRead_number (fun _ hn => UInt32.toNat_ofNat_of_lt' hn) hsection hfield

private theorem isRead_uint64 {get : α → UInt64} (hsection : IsField Settings.ofSetting? name section? part)
    (hfield : IsField section? key asUInt64? get) : (number 64 [name, key] fun s => (get (part s)).toNat).IsRead :=
  isRead_number (fun _ hn => UInt64.toNat_ofNat_of_lt' hn) hsection hfield

/-- Each leaf is a field of its section, and each section one of the settings. -/
theorem isRead_of_mem_leaves : ∀ leaf ∈ Settings.leaves, leaf.IsRead := by
  obtain ⟨chain, -, -, gas, defaults⟩ := Settings.fields
  obtain ⟨chainId, lcdUrl, rpcUrl⟩ := ChainSettings.fields
  obtain ⟨lbFactory, lbRouter⟩ := ContractSettings.fields
  obtain ⟨address, codeHash⟩ := ContractRef.fields
  obtain ⟨addLiquidity, removeLiquidity, swap, createPair, setViewingKey⟩ := GasSettings.fields
  obtain ⟨slippageBps, idSlippage, binStep, deadlineWindowSecs, viewingKeyPadding⟩ := DefaultSettings.fields
  simp only [Settings.leaves, Settings.chainLeaves, Settings.contractLeaves, Settings.gasLeaves, Settings.defaultLeaves,
    List.cons_append, List.nil_append, List.forall_mem_cons]
  exact ⟨isRead_text chain chainId, isRead_text chain lcdUrl, isRead_text chain rpcUrl,
    isRead_contract lbFactory address, isRead_contract lbFactory codeHash,
    isRead_contract lbRouter address, isRead_contract lbRouter codeHash,
    isRead_uint64 gas addLiquidity, isRead_uint64 gas removeLiquidity, isRead_uint64 gas swap,
    isRead_uint64 gas createPair, isRead_uint64 gas setViewingKey,
    isRead_uint16 defaults slippageBps, isRead_uint32 defaults idSlippage, isRead_uint16 defaults binStep,
    isRead_uint64 defaults deadlineWindowSecs, isRead_text defaults viewingKeyPadding, nofun⟩

end Leaf

namespace Settings
variable {document x : Setting} {s : Settings} {leaf : Leaf}

theorem tokens_of_lookup? (h : ofSetting? document = some s) (hx : document.lookup? ["tokens"] = some x) :
    asList? Token.ofSetting? x = some s.tokens := by
  have hfind := lookup?_singleton.1 hx
  obtain ⟨es, rfl⟩ := exists_table_of_find? hfind
  exact fields.2.2.1 h hfind

theorem isReadable_of_mem_leaves (hl : leaf ∈ leaves) : Layer.IsReadable leaf.path := by
  have hall : ∀ path ∈ leaves.map Leaf.path,
      2 ≤ path.length ∧ Step.ofName (String.ofList (Step.written path)) = path.map .entry := by
    decide +kernel
  obtain ⟨hlen, hname⟩ := hall _ (List.mem_map_of_mem hl)
  exact ⟨hlen, hname⟩

theorem isNamed_variableName (envPrefix : String) (hl : leaf ∈ leaves) :
    Layer.isNamed envPrefix leaf.path (leaf.variableName envPrefix) := by
  have hall : ∀ path ∈ leaves.map Leaf.path,
      Layer.joinPoints (lowerName ("__".intercalate (path.map String.toUpper))).toList = Step.written path := by
    decide +kernel
  exact Layer.isNamed_append (hall _ (List.mem_map_of_mem hl))

theorem isOpen_builtin (hl : leaf ∈ leaves) : builtin.toLayer.isOpen leaf.path := by
  have hall : ∀ path ∈ leaves.map Leaf.path, builtin.toLayer.isOpen path := by decide +kernel
  exact hall _ (List.mem_map_of_mem hl)

/-- The built-in layer gives each leaf, and gives it once. -/
theorem values_builtin (hl : leaf ∈ leaves) :
    ∃ x, builtin.toLayer.values leaf.path = [x] ∧ leaf.Holds builtin x := by
  have hall : ∀ leaf ∈ leaves, (builtin.toLayer.values leaf.path).length = 1 ∧
      (builtin.toLayer.values leaf.path).head?.bind leaf.read? = leaf.get builtin ∧ (leaf.get builtin).isSome := by
    decide +kernel
  obtain ⟨hone, hread, hsome⟩ := hall leaf hl
  obtain ⟨x, hx⟩ := List.length_eq_one_iff.1 hone
  obtain ⟨v, hv⟩ := Option.isSome_iff_exists.1 hsome
  rw [hx, hv] at hread
  exact ⟨x, hx, v, hread, hv⟩

end Settings

end LiquidityBook
