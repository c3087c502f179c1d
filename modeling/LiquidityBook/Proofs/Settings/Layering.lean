import LiquidityBook.Proofs.Settings.Leaf

/-! Where loaded settings come from. Each single value is that of the environment, else that of the file, else the
built-in one, as long as what it stands in is a table everywhere; the list of tokens is taken whole. -/
namespace LiquidityBook

open Setting

/-- The layer of a file; one that cannot be read gives nothing. -/
def UserFile.given (file : UserFile) : Layer := file.layer.toOption.getD []

namespace Layer
variable {layer : Layer} {n : String}

private theorem isOpen_singleton (h : ∀ e ∈ layer, ∃ m place, e.1 = .entry m :: place) : layer.isOpen [n] := by
  refine List.all_eq_true.2 fun (place, value) he => ?_
  obtain ⟨m, place, rfl⟩ := h _ he
  cases place <;> simp [isOpenAt, Setting.isOpen]

private theorem isOpen_ofEnvironment (envPrefix : String) (env : List (String × String)) :
    (ofEnvironment envPrefix env).isOpen [n] :=
  isOpen_singleton fun _ he => (exists_of_mem_ofEnvironment he).1

private theorem isOpen_ofToml (entries : List (String × Toml)) : (ofToml entries).isOpen [n] := by
  refine isOpen_singleton fun e he => ?_
  obtain ⟨⟨key, value⟩, -, rfl⟩ := List.mem_map.1 he
  obtain ⟨m, place, hplace⟩ := Step.exists_ofName_eq_cons (lowerName key)
  refine ⟨m, place, ?_⟩
  rw [← hplace]
  dsimp only
  split <;> rfl

private theorem isOpen_given (file : UserFile) : file.given.isOpen [n] := by
  cases file with
  | unnamed | missing => rfl
  | text contents =>
    rw [UserFile.given, UserFile.layer]
    cases Toml.parse? contents with
    | none => rfl
    | some entries => exact isOpen_ofToml entries

end Layer

namespace Settings
variable {envPrefix : String} {file : UserFile} {env : List (String × String)} {s : Settings} {leaf : Leaf}

private theorem load_eq_ok (h : load envPrefix file env = .ok s) :
    ofSetting? (document envPrefix file.given env) = some s ∧ s.validate = .ok () := by
  obtain ⟨given, hfile, h⟩ := Error.bind_eq_ok_iff.1 h
  have hgiven : file.given = given := by
    rw [UserFile.given, hfile]
    rfl
  rw [hgiven]
  unfold ofDocument at h
  split at h
  · cases h
  · rename_i t ht
    obtain ⟨_, hvalid, hs⟩ := Error.bind_eq_ok_iff.1 h
    cases hs
    exact ⟨ht, hvalid⟩

section Document
variable {loose : Setting → Prop} {path : List String} {given : Layer}

private theorem bears_below (hloose : ∀ es, loose (table es))
    (hitem : given.entersItem path → ∀ items, loose (list items))
    (hbuiltin : builtin.toLayer.entersItem path → ∀ items, loose (list items))
    (hopen : builtin.toLayer.isOpen path) (hgiven : given.isOpen path) :
    Bears loose path ((given.values path).getLast?.or (builtin.toLayer.values path).getLast?)
      (Layer.applyTo (Layer.applyTo (.table []) builtin.toLayer) given) := by
  have hnone : Bears loose path none (.table []) := fun v hv => nomatch hv
  have hfirst := Layer.bears_applyTo hloose hbuiltin hnone hopen
  rw [Option.or_none] at hfirst
  exact Layer.bears_applyTo hloose hitem hfirst hgiven

private theorem bears_document (hloose : ∀ es, loose (table es))
    (hitem : (Layer.ofEnvironment envPrefix env).entersItem path → ∀ items, loose (list items))
    (henv : (Layer.ofEnvironment envPrefix env).isOpen path) {below : Option Setting}
    (h : Bears loose path below (Layer.applyTo (Layer.applyTo (.table []) builtin.toLayer) given)) :
    Bears loose path (((Layer.ofEnvironment envPrefix env).values path).getLast?.or below)
      (document envPrefix given env) :=
  Layer.bears_applyTo hloose hitem h henv

end Document

private theorem read?_table (leaf : Leaf) (es : List (String × Setting)) : leaf.read? (table es) = none := by
  unfold Leaf.read?
  cases leaf.bits <;> rfl

private theorem read?_list (leaf : Leaf) (items : List Setting) : leaf.read? (list items) = none := by
  unfold Leaf.read?
  cases leaf.bits <;> rfl

private theorem holds_of_bears {document x : Setting} (h : ofSetting? document = some s) (hl : leaf ∈ leaves)
    (hb : Bears (leaf.read? · = none) leaf.path (some x) document) : leaf.Holds s x := by
  obtain ⟨y, hy, hyx⟩ := hb x rfl
  have hholds := Leaf.isRead_of_mem_leaves leaf hl h hy
  rcases hyx with rfl | hnone
  · exact hholds
  · obtain ⟨v, hv, -⟩ := hholds
    rw [hnone] at hv
    cases hv

/-- The value of a leaf as its sources have it. Of several entries of a file for one leaf none is promised to be the one
that stays, so a file counts that gives the leaf once. -/
structure Governed (envPrefix : String) (file : UserFile) (env : List (String × String)) (s : Settings) (leaf : Leaf) :
    Prop where
  of_environment : ∀ value, Layer.setTo? envPrefix leaf.path env = some value → leaf.Holds s (ofVariable value)
  verbatim : ∀ value, Layer.setTo? envPrefix leaf.path env = some value → leaf.bits = none → IsPlain value →
    leaf.get s = some (.text value)
  of_file : Layer.setTo? envPrefix leaf.path env = none → file.given.isOpen leaf.path →
    ∀ x, file.given.values leaf.path = [x] → leaf.Holds s x
  of_builtin : Layer.setTo? envPrefix leaf.path env = none → file.given.isOpen leaf.path →
    file.given.values leaf.path = [] → leaf.get s = leaf.get builtin

private theorem governed (h : ofSetting? (document envPrefix file.given env) = some s) (hl : leaf ∈ leaves)
    (henv : (Layer.ofEnvironment envPrefix env).isOpen leaf.path) : Governed envPrefix file env s leaf := by
  have hover : ∀ below, Bears (leaf.read? · = none) leaf.path below
      (Layer.applyTo (Layer.applyTo (.table []) builtin.toLayer) file.given) →
      Bears (leaf.read? · = none) leaf.path (((Layer.setTo? envPrefix leaf.path env).map ofVariable).or below)
        (document envPrefix file.given env) := by
    intro below hb
    rw [← Layer.getLast?_values_ofEnvironment (isReadable_of_mem_leaves hl)]
    exact bears_document (read?_table leaf) (fun _ => read?_list leaf) henv hb
  -- under an open environment it does not matter what the lower sources give
  have hset : ∀ value, Layer.setTo? envPrefix leaf.path env = some value → leaf.Holds s (ofVariable value) := by
    intro value hvalue
    have hb := hover none (fun v hv => nomatch hv)
    rw [hvalue, Option.map_some, Option.some_or] at hb
    exact holds_of_bears h hl hb
  have hunset : Layer.setTo? envPrefix leaf.path env = none → file.given.isOpen leaf.path →
      ∀ x, (file.given.values leaf.path).getLast?.or (builtin.toLayer.values leaf.path).getLast? = some x →
        leaf.Holds s x := by
    intro hnone hgiven x hx
    have hb := hover _ (bears_below (read?_table leaf) (fun _ => read?_list leaf) (fun _ => read?_list leaf)
      (isOpen_builtin hl) hgiven)
    rw [hnone, Option.map_none, Option.none_or, hx] at hb
    exact holds_of_bears h hl hb
  refine ⟨hset, ?_, ?_, ?_⟩
  · intro value hvalue hbits hplain
    rw [(hset value hvalue).get_eq, ofVariable_of_isPlain hplain, Leaf.read?, hbits]
    rfl
  · intro hnone hgiven x hx
    exact hunset hnone hgiven x (by rw [hx, List.getLast?_singleton, Option.some_or])
  · intro hnone hgiven hfile
    obtain ⟨x, hx, hbuiltin⟩ := values_builtin hl
    have hholds := hunset hnone hgiven x (by rw [hfile, hx, List.getLast?_nil, Option.none_or, List.getLast?_singleton])
    rw [hholds.get_eq, hbuiltin.get_eq]

/-- The tokens as their sources have them. -/
structure TokensGoverned (file : UserFile) (s : Settings) : Prop where
  of_file : ∀ x, file.given.values ["tokens"] = [x] → asList? Token.ofSetting? x = some s.tokens
  of_builtin : file.given.values ["tokens"] = [] → s.tokens = builtin.tokens

private theorem tokens_builtin :
    (builtin.toLayer.values ["tokens"]).getLast?.bind (asList? Token.ofSetting?) = some builtin.tokens := by
  decide +kernel

private theorem tokens_governed (h : ofSetting? (document envPrefix file.given env) = some s)
    (hgiven : ¬ file.given.entersItem ["tokens"]) (henv : ¬ (Layer.ofEnvironment envPrefix env).entersItem ["tokens"]) :
    TokensGoverned file s := by
  have hbelow : Bears (asList? Token.ofSetting? · = none) ["tokens"] _ _ := bears_below (fun _ => rfl)
    (fun hi => absurd hi hgiven) (fun hi => absurd hi (by decide +kernel)) (by decide +kernel) (Layer.isOpen_given file)
  have hb := bears_document (fun _ => rfl) (fun hi => absurd hi henv) (Layer.isOpen_ofEnvironment envPrefix env) hbelow
  have hread : ∀ x, ((Layer.ofEnvironment envPrefix env).values ["tokens"]).getLast?.or
      ((file.given.values ["tokens"]).getLast?.or (builtin.toLayer.values ["tokens"]).getLast?) = some x →
      asList? Token.ofSetting? x = some s.tokens := by
    intro x hx
    obtain ⟨y, hy, hyx⟩ := hb x hx
    have hlist := tokens_of_lookup? h hy
    rcases hyx with rfl | hnone
    · exact hlist
    · rw [hlist] at hnone
      cases hnone
  -- a single value is no list, so the environment gives none
  have hnone : ((Layer.ofEnvironment envPrefix env).values ["tokens"]).getLast? = none := by
    cases hx : ((Layer.ofEnvironment envPrefix env).values ["tokens"]).getLast? with
    | none => rfl
    | some x =>
      have hsingle := Layer.isSingle_of_mem_values_ofEnvironment (List.mem_of_getLast? hx)
      have hlist := hread x (by rw [hx, Option.some_or])
      cases x <;> first | cases hlist | cases hsingle
  rw [hnone] at hread
  refine ⟨fun x hx => hread x (by rw [hx]; rfl), fun hfile => ?_⟩
  obtain ⟨x, hx, htokens⟩ := Option.bind_eq_some_iff.1 tokens_builtin
  rw [hread x (by rw [hfile, hx]; rfl)] at htokens
  exact Option.some.inj htokens

/-- Settings that load are valid, and their values are those of the uppermost source that gives them. For a leaf, that
supposes that the sources have only tables on the way to it; for the tokens, that no source changes single ones; and for
both, that the file gives them once or not at all. -/
theorem load_layered (h : load envPrefix file env = .ok s) :
    s.validate = .ok () ∧
    (∀ leaf ∈ leaves, Layer.isNamed envPrefix leaf.path (leaf.variableName envPrefix) ∧
      ((Layer.ofEnvironment envPrefix env).isOpen leaf.path → Governed envPrefix file env s leaf)) ∧
    (¬ file.given.entersItem ["tokens"] → ¬ (Layer.ofEnvironment envPrefix env).entersItem ["tokens"] →
      TokensGoverned file s) := by
  obtain ⟨hread, hvalid⟩ := load_eq_ok h
  exact ⟨hvalid, fun _ hl => ⟨isNamed_variableName envPrefix hl, governed hread hl⟩, tokens_governed hread⟩

private theorem exists_load {p : Settings → Prop} [DecidablePred p] (h : (load envPrefix file env).toOption.any (p ·)) :
    ∃ s, load envPrefix file env = .ok s ∧ p s := by
  cases hload : load envPrefix file env with
  | error e =>
    rw [hload] at h
    cases h
  | ok s =>
    rw [hload] at h
    exact ⟨s, rfl, of_decide_eq_true h⟩

/-- A file with a gas limit, a slippage and a token, under an environment with that gas limit and the chain. -/
theorem load_layered_over_builtin :
    let file := UserFile.text ("[gas]\nswap = 7\n[defaults]\nslippage_bps = 100\n" ++
      "[[tokens]]\naddress = 'a'\ncode_hash = 'h'\nsymbol = 'S'\ndecimals = 3\n")
    let env := [("LB__GAS__SWAP", "6"), ("lb__chain__chain_id", "secret-4")]
    ∃ s, load "LB" file env = .ok s ∧ s.validate = .ok () ∧ s.gas.swap.toNat = 6 ∧ s.chain.chainId = "secret-4" ∧
      s.defaults.slippageBps.toNat = 100 ∧ s.gas.createPair.toNat = 500000 ∧ s.tokens = [⟨"a", "h", "S", 3⟩] := by
  intro file env
  have hload : ∃ s, load "LB" file env = .ok s ∧ s.gas.swap = 6 := exists_load (by decide +kernel)
  obtain ⟨s, hs, -⟩ := hload
  obtain ⟨hvalid, hleaves, htokens⟩ := load_layered hs
  have henv : ∀ leaf ∈ leaves, (Layer.ofEnvironment "LB" env).isOpen leaf.path := by decide +kernel
  have hfile : ∀ leaf ∈ leaves, file.given.isOpen leaf.path := by decide +kernel
  refine ⟨s, hs, hvalid, ?_, ?_, ?_, ?_, ?_⟩
  · let leaf := Leaf.number 64 ["gas", "swap"] (·.gas.swap.toNat)
    have hl : leaf ∈ leaves := by simp [leaves, gasLeaves, leaf]
    have hholds := ((hleaves leaf hl).2 (henv leaf hl)).of_environment "6" (by decide +kernel)
    have hread : leaf.read? (ofVariable "6") = some (.number 6) := by decide +kernel
    simpa [leaf, Leaf.number] using hholds.get_eq.trans hread
  · let leaf := Leaf.text ["chain", "chain_id"] (·.chain.chainId)
    have hl : leaf ∈ leaves := by simp [leaves, chainLeaves, leaf]
    have hplain : IsPlain "secret-4" :=
      ⟨by decide +kernel, by decide +kernel, by decide +kernel, by decide +kernel⟩
    have hget := ((hleaves leaf hl).2 (henv leaf hl)).verbatim "secret-4" (by decide +kernel) rfl hplain
    simpa [leaf, Leaf.text] using hget
  · let leaf := Leaf.number 16 ["defaults", "slippage_bps"] (·.defaults.slippageBps.toNat)
    have hl : leaf ∈ leaves := by simp [leaves, defaultLeaves, leaf]
    have hread : (file.given.values leaf.path).length = 1 ∧
        (file.given.values leaf.path).head?.bind leaf.read? = some (.number 100) := by decide +kernel
    obtain ⟨x, hx⟩ := List.length_eq_one_iff.1 hread.1
    have hholds := ((hleaves leaf hl).2 (henv leaf hl)).of_file (by decide +kernel) (hfile leaf hl) x hx
    have hvalue : leaf.read? x = some (.number 100) := by simpa [hx] using hread.2
    simpa [leaf, Leaf.number] using hholds.get_eq.trans hvalue
  · let leaf := Leaf.number 64 ["gas", "create_pair"] (·.gas.createPair.toNat)
    have hl : leaf ∈ leaves := by simp [leaves, gasLeaves, leaf]
    have hget := ((hleaves leaf hl).2 (henv leaf hl)).of_builtin (by decide +kernel) (hfile leaf hl) (by decide +kernel)
    have hbuiltin : leaf.get builtin = some (.number 500000) := by decide +kernel
    simpa [leaf, Leaf.number] using hget.trans hbuiltin
  · have hread : (file.given.values ["tokens"]).length = 1 ∧
        (file.given.values ["tokens"]).head?.bind (asList? Token.ofSetting?) = some [⟨"a", "h", "S", 3⟩] := by
      decide +kernel
    obtain ⟨x, hx⟩ := List.length_eq_one_iff.1 hread.1
    have hlist := (htokens (by decide +kernel) (by decide +kernel)).of_file x hx
    have hvalue : asList? Token.ofSetting? x = some [⟨"a", "h", "S", 3⟩] := by simpa [hx] using hread.2
    exact Option.some.inj (hlist.symm.trans hvalue)

/-- A text that reads as a number is not kept as it is. Names count in any case, and with a point for two underscores.
What is not a table takes the place of a whole section, and so does an item; and the list of tokens is changed through a
place in it. -/
theorem load_not_leafwise :
    (∃ s, load "LB" .unnamed [("LB__CHAIN__CHAIN_ID", "007")] = .ok s ∧ s.chain.chainId ≠ "007") ∧
    (∃ s, load "LB" .unnamed [("lb__gas__swap", "6")] = .ok s ∧ s.gas.swap ≠ builtin.gas.swap) ∧
    (∃ s, load "LB" .unnamed [("LB__GAS.SWAP", "6")] = .ok s ∧ s.gas.swap ≠ builtin.gas.swap) ∧
    (∃ s, load "LB" (.text "contracts = []\n") [] = .ok s ∧ s.contracts.lbFactory ≠ builtin.contracts.lbFactory) ∧
    (∃ s, load "LB" (.text "contracts = 5\n") [("LB__CONTRACTS__LB_FACTORY__ADDRESS", "a"),
        ("LB__CONTRACTS__LB_FACTORY__CODE_HASH", "h")] = .ok s ∧ s.contracts.lbRouter ≠ builtin.contracts.lbRouter) ∧
    (∃ s, load "LB" (.text "[gas]\nswap = 7\n") [("LB__GAS", "5"), ("LB__GAS__CREATE_PAIR", "6")] = .ok s ∧
      s.gas.swap ≠ 7) ∧
    (∃ s, load "LB" (.text "[gas]\nswap = 7\n") [("LB__GAS[0]", "6")] = .ok s ∧ s.gas.swap ≠ 7) ∧
    (∃ s, load "LB" (.text "\"tokens[0].decimals\" = 9\n") [] = .ok s ∧ s.tokens ≠ builtin.tokens) := by
  refine ⟨?_, ?_, ?_, ?_, ?_, ?_, ?_, ?_⟩
  all_goals
    apply exists_load
    decide +kernel

end Settings

end LiquidityBook
