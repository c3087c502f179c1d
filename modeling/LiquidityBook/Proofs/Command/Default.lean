import LiquidityBook.Proofs.Allocation.Withdrawal
import LiquidityBook.Proofs.Command.Outcome
import LiquidityBook.Proofs.Registry.Resolution

/-! What commands take from the settings where it is left out. The slippage, the bin step and the gas limits of settings
that were accepted are always in order. The deadline is the end of a window that starts now, and it is in order unless
the window is so long that its end does not fit 64 bits: then it starts again from zero, or the command is aborted where
overflow is checked. -/
namespace LiquidityBook

def ExecuteMsg.deadline? : ExecuteMsg → Option UInt64
  | addLiquidity params => some params.deadline
  | removeLiquidity params => some params.deadline
  | _ => none

namespace Command
variable {c : Context} {now : Int}

/-- Commands for the contracts that leave their slippage, their bin step and their deadline to the settings. -/
def Defaulted : Command → Prop
  | addLiquidity a => a.pair.binStep = none ∧ a.slippageBps = none ∧ a.deadline = none
  | removeLiquidity r => r.pair.binStep = none ∧ r.slippageBps = none ∧ r.deadline = none
  | createPair pair _ | pairQuery pair => pair.binStep = none
  | presetQuery binStep => binStep = none
  | swap _ => True
  | _ => False

def message? (c : Context) : Command → Option (Except CommandError ExecuteMsg)
  | addLiquidity a => some (addLiquidityMsg c a)
  | removeLiquidity r => some (removeLiquidityMsg c r)
  | swap s => some (swapMsg c s)
  | createPair pair active => some (createPairMsg c pair active)
  | _ => none

/-- Commands whose messages have a deadline. -/
def expires : Command → Bool
  | addLiquidity _ | removeLiquidity _ => true
  | _ => false

/-- When the window ends that starts now. -/
def Context.due (c : Context) : Int := c.now + c.settings.defaults.deadlineWindowSecs.toNat

/-- The failures that accepted settings leave possible: none over a slippage, a bin step or the clock. Only where the
window ends at `2 ^ 64` and overflow is not checked, there is one over a deadline, and only where it ends there or
behind and overflow is checked, commands are aborted. -/
def LeftPossible (checked : Bool) (due : Int) : CommandError → Prop
  | .client (.invalidSlippage _) | .client (.invalidBinStep _) | .clockTooEarly => False
  | .client (.schemaViolation .zeroDeadline) => checked = false ∧ due = 2 ^ 64
  | .overflow => checked = true ∧ 2 ^ 64 ≤ due
  | _ => True

/-- The default deadline is the end of the window, unless that does not fit 64 bits. Then there is none if overflow is
checked, and if it is not, the deadline is over before the message is sent. -/
structure Dated (c : Context) : Prop where
  exact : c.due < 2 ^ 64 → ∃ d, c.deadline none = .ok d ∧ (d.toNat : Int) = c.due ∧ c.now ≤ d.toNat
  wrapped : 2 ^ 64 ≤ c.due → c.checked = false →
    ∃ d, c.deadline none = .ok d ∧ (d.toNat : Int) = c.due - 2 ^ 64 ∧ d.toNat < c.now
  aborted : 2 ^ 64 ≤ c.due → c.checked = true → c.deadline none = .error .overflow
  zero_iff : c.deadline none = .ok 0 ↔ c.checked = false ∧ c.due = 2 ^ 64

/-- How a command may end that leaves to the settings what it can. -/
structure Admissible (c : Context) (cmd : Command) : Prop where
  failed : ∀ e, cmd.run c = .error e → LeftPossible c.checked c.due e
  printed : ∀ made, cmd.message? c = some made → ∀ text, cmd.run c = .ok text → ∃ contract gas m, made = .ok m ∧
    text = envelope contract gas m ∧ 0 < gas.toNat ∧
    if cmd.expires then ∃ d, c.deadline none = .ok d ∧ m.deadline? = some d ∧ d ≠ 0 else m.deadline? = none

private theorem deadline_none (hpos : 0 < c.now) : c.deadline none =
    if c.checked = true ∧ 2 ^ 64 ≤ c.due then .error .overflow
    else .ok (UInt64.ofNat c.now.toNat + c.settings.defaults.deadlineWindowSecs) := by
  have hdue : 2 ^ 64 ≤ c.now.toNat + c.settings.defaults.deadlineWindowSecs.toNat ↔ (2 ^ 64 : Int) ≤ c.due := by
    unfold Context.due
    omega
  rw [Context.deadline, if_neg (Int.not_lt.2 hpos.le)]
  simp only [hdue]

/-- The addition is that of 64 bits, and it carries where the sum is of more. -/
private theorem dated (hpos : 0 < c.now) (hlt : c.now < 2 ^ 63) : Dated c := by
  have hfits : c.now.toNat < 2 ^ 64 := by omega
  have hnow : (UInt64.ofNat c.now.toNat).toNat = c.now.toNat := UInt64.toNat_ofNat_of_lt' hfits
  have hw := c.settings.defaults.deadlineWindowSecs.toNat_lt
  have hd : (UInt64.ofNat c.now.toNat + c.settings.defaults.deadlineWindowSecs).toNat =
      (c.now.toNat + c.settings.defaults.deadlineWindowSecs.toNat) % 2 ^ 64 := by
    rw [UInt64.toNat_add, hnow]
  have hdue : c.due = c.now + c.settings.defaults.deadlineWindowSecs.toNat := rfl
  constructor
  · intro hfits
    refine ⟨_, by rw [deadline_none hpos, if_neg (by omega)], ?_⟩
    omega
  · intro hover hu
    refine ⟨_, by rw [deadline_none hpos, if_neg (by simp [hu])], ?_⟩
    omega
  · intro hover hc
    rw [deadline_none hpos, if_pos ⟨hc, hover⟩]
  · rw [deadline_none hpos]
    split
    next h => exact iff_of_false nofun fun hn => Bool.false_ne_true (hn.1.symm.trans h.1)
    next h =>
      have hz : (c.now.toNat + c.settings.defaults.deadlineWindowSecs.toNat) % 2 ^ 64 = 0 ↔ c.due = 2 ^ 64 := by omega
      rw [Except.ok.injEq, ← UInt64.toNat_inj, hd, UInt64.toNat_zero, hz]
      exact ⟨fun he => ⟨Bool.eq_false_iff.2 fun hc => h ⟨hc, he.ge⟩, he⟩, And.right⟩

private theorem Dated.failsOnly (h : Dated c) : FailsOnly (LeftPossible c.checked c.due) (c.deadline none) := by
  intro e he
  rcases lt_or_ge c.due (2 ^ 64) with hfits | hover
  · obtain ⟨d, hd, -⟩ := h.exact hfits
    rw [hd] at he
    cases he
  · cases hc : c.checked with
    | false =>
      obtain ⟨d, hd, -⟩ := h.wrapped hover hc
      rw [hd] at he
      cases he
    | true =>
      rw [h.aborted hover hc] at he
      cases he
      exact ⟨rfl, hover⟩

private theorem Dated.zero_leftPossible {d : UInt64} (h : Dated c) (hd : c.deadline none = .ok d) (hz : d = 0) :
    LeftPossible c.checked c.due (.client (.schemaViolation .zeroDeadline)) :=
  h.zero_iff.1 (hz ▸ hd)

section
variable {allowed : Error → Prop} {binStep : UInt16} {price : Float} {decimalsX decimalsY : Nat}

private theorem ofNat_failsOnly (hid : ∀ id, allowed (.binIdOutOfRange id)) (n : Nat) :
    FailsOnly allowed (BinId.ofNat n) := by
  unfold BinId.ofNat
  split
  · exact .ok _
  · exact .error (hid _)

private theorem above_failsOnly (hid : ∀ id, allowed (.binIdOutOfRange id)) (k : Int) :
    FailsOnly allowed (BinId.above k) := by
  unfold BinId.above BinId.ofInt
  split
  · exact .ok _
  · exact .error (hid _)

private theorem humanToBin_failsOnly (hp : ∀ text, allowed (.invalidPrice text))
    (hid : ∀ id, allowed (.binIdOutOfRange id))
    (hstep : binStep ≠ 0) : FailsOnly allowed (Price.humanToBin price binStep decimalsX decimalsY) := by
  have hbin (p : Float) : FailsOnly allowed (Price.toBin p binStep) := by
    unfold Price.toBin Price.Platform.toBin Price.base
    rw [if_neg hstep]
    refine .bind (.ok _) fun _ _ => ?_
    split
    · exact .error (hp _)
    · unfold Price.locate
      split
      · exact .error (hid _)
      · exact above_failsOnly hid _
  unfold Price.humanToBin
  split
  · exact .error (hp _)
  · exact hbin _

private theorem around_failsOnly {build : Nat → Except Error (List Decimal)}
    (hr : ∀ radius, allowed (.schemaViolation (.radiusTooLarge radius))) (hb : ∀ r, FailsOnly allowed (build r))
    (radius : UInt32) : FailsOnly allowed (Shape.around radius build) := by
  have hc : FailsOnly allowed (Shape.checkRadius radius) := by
    unfold Shape.checkRadius
    split
    · exact .ok _
    · exact .error (hr _)
  exact hc.bind fun r _ => (hb r).bind fun _ _ => .ok _

private theorem weights_failsOnly (hr : ∀ radius, allowed (.schemaViolation (.radiusTooLarge radius)))
    (hwidth : ∀ sigma, allowed (.schemaViolation (.curveWidth sigma)))
    (hweight : ∀ offset, allowed (.schemaViolation (.curveWeight offset))) (shape : Shape) :
    FailsOnly allowed shape.weights := by
  cases shape with
  | spot => exact .ok _
  | uniform radius => exact around_failsOnly hr (fun _ => .ok _) radius
  | curve radius sigma =>
    have hside (r : Nat) : FailsOnly allowed (Shape.curveSide r sigma) := by
      refine .mapM (fun d => ?_) _
      split
      · exact .ok _
      · exact .error (hweight _)
    rw [Shape.weights]
    split
    · exact around_failsOnly hr hside radius
    · exact .error (hwidth _)

end

private theorem failsOnly_of_decides {α : Type} {allowed : Error → Prop} {x : Except Error α} {rs : List Requirement}
    (hx : Requirement.Decides x rs) (hr : ∀ r ∈ rs, ¬ r.met → ∀ e, r.reports e → allowed e) : FailsOnly allowed x := by
  intro e he
  obtain ⟨r, hm, hn, hrep⟩ := (hx.error e he).exists_reporting
  exact hr r hm hn e hrep

section
variable {checked : Bool} {due : Int} {name : String} {p : PairChoice} {pair : Pair} {active : Option ActiveBin}

private theorem token_failsOnly : FailsOnly (LeftPossible checked due) (c.token name) := by
  refine failsOnly_ofClient fun e he => ?_
  obtain ⟨_, rfl⟩ := TokenRegistry.resolve_eq_error_iff.1 he
  trivial

private theorem amount_failsOnly (text : String) (decimals : Nat) :
    FailsOnly (LeftPossible checked due) (ofClient (Amount.toMachine text decimals)) := by
  refine failsOnly_ofClient fun e he => ?_
  obtain ⟨_, rfl⟩ := Amount.invalidAmount_of_toMachine he
  trivial

private theorem pair_failsOnly (hv : c.settings.Valid) (hp : p.binStep = none) :
    FailsOnly (LeftPossible checked due) (c.pair p) := by
  simp only [Context.pair, Context.binStep, Pair.ofTokens, hp, Option.getD_none, if_neg hv.binStep_ne]
  exact token_failsOnly.bind fun _ _ => token_failsOnly.bind fun _ _ => .ok _

private theorem binStep_of_pair (h : c.pair p = .ok pair) : pair.binStep ≠ 0 := by
  simp only [Context.pair, Error.bind_eq_ok_iff, ofClient_eq_ok_iff] at h
  obtain ⟨_, _, _, _, h⟩ := h
  unfold Pair.ofTokens at h
  split at h
  · cases h
  · cases h
    assumption

private theorem activeBin_failsOnly (h : pair.binStep ≠ 0) :
    FailsOnly (LeftPossible checked due) (activeBin pair active) := by
  rcases active with _ | n | price
  · exact .error trivial
  · exact failsOnly_ofClient (ofNat_failsOnly (fun _ => trivial) _)
  · exact failsOnly_ofClient (humanToBin_failsOnly (fun _ => trivial) (fun _ => trivial) h)

private theorem position_failsOnly (given : UInt32 × String) :
    FailsOnly (LeftPossible checked due) (position given) := by
  refine .bind (failsOnly_ofClient (ofNat_failsOnly (fun _ => trivial) _)) fun _ _ => ?_
  split
  · exact .ok _
  · exact .error trivial

private theorem compile_failsOnly {intent : LiquidityIntent} {activeId : BinId} {bps : Nat} (h : bps ≤ 10000) :
    FailsOnly (LeftPossible checked due) (ofClient (Allocation.compile intent activeId bps)) := by
  refine failsOnly_ofClient (failsOnly_of_decides (Allocation.decides_compile ..) ?_)
  simp only [Allocation.requirements, List.forall_mem_cons, List.not_mem_nil, false_implies, implies_true, and_true]
  -- The slippage is in order, and whatever the other requirements report is left possible.
  refine ⟨fun hn => absurd h hn, ?_, ?_, ?_, ?_, ?_, ?_, ?_, ?_⟩
  · rintro _ _ rfl
    trivial
  · rintro _ _ ⟨_, rfl⟩
    trivial
  · rintro _ _ ⟨_, rfl⟩
    trivial
  · rintro _ _ rfl
    trivial
  · rintro _ _ ⟨_, _, _, _, _, _, rfl⟩
    trivial
  · rintro _ _ (⟨_, _, _, _, _, _, rfl⟩ | ⟨_, rfl⟩) <;> trivial
  · rintro _ _ (⟨_, _, _, _, _, _, rfl⟩ | ⟨_, rfl⟩) <;> trivial
  · rintro _ _ ⟨_, _, _, _, _, _, rfl⟩
    trivial

private theorem compileRemoval_failsOnly {intent : RemovalIntent} {bps : Nat} (h : bps ≤ 10000) :
    FailsOnly (LeftPossible checked due) (ofClient (Allocation.compileRemoval intent bps)) := by
  refine failsOnly_ofClient (failsOnly_of_decides (Allocation.decides_compileRemoval ..) ?_)
  simp only [Allocation.removalRequirements, List.forall_mem_cons, List.not_mem_nil, false_implies,
    implies_true, and_true]
  refine ⟨fun hn => absurd h hn, ?_, ?_, ?_⟩
  · rintro _ _ rfl
    trivial
  · rintro _ _ rfl
    trivial
  · rintro _ _ ⟨_, _, _, _, _, _, rfl⟩
    trivial

private theorem slippage_le (hv : c.settings.Valid) : c.slippage none ≤ 10000 := hv.slippage_le

private theorem addLiquidityMsg_failsOnly {a : AddLiquidity} (hv : c.settings.Valid) (hd : Defaulted (.addLiquidity a))
    (hdate : Dated c) : FailsOnly (LeftPossible c.checked c.due) (addLiquidityMsg c a) := by
  obtain ⟨hb, hs, ht⟩ := hd
  unfold addLiquidityMsg
  rw [hs, ht]
  refine (pair_failsOnly hv hb).bind fun pair hpair => ?_
  refine (activeBin_failsOnly (binStep_of_pair hpair)).bind fun active _ => ?_
  refine .bind (failsOnly_ofClient (weights_failsOnly (fun _ => trivial) (fun _ => trivial) (fun _ => trivial) _))
    fun spread _ => ?_
  refine (compile_failsOnly (slippage_le hv)).bind fun plan _ => hdate.failsOnly.bind fun d hd => ?_
  exact failsOnly_ofClient (.bind (.when fun _ => trivial) fun _ _ =>
    .bind (.when (hdate.zero_leftPossible hd)) fun _ _ => .ok _)

private theorem removeLiquidityMsg_failsOnly {r : RemoveLiquidity} (hv : c.settings.Valid)
    (hd : Defaulted (.removeLiquidity r)) (hdate : Dated c) :
    FailsOnly (LeftPossible c.checked c.due) (removeLiquidityMsg c r) := by
  obtain ⟨hb, hs, ht⟩ := hd
  unfold removeLiquidityMsg
  rw [hs, ht]
  refine (pair_failsOnly hv hb).bind fun pair _ => .bind (.mapM position_failsOnly _) fun positions _ => ?_
  refine (amount_failsOnly _ _).bind fun x _ => (amount_failsOnly _ _).bind fun y _ => ?_
  refine (compileRemoval_failsOnly (slippage_le hv)).bind fun plan _ => hdate.failsOnly.bind fun d hd => ?_
  exact failsOnly_ofClient (.bind (.when fun _ => trivial) fun _ _ => .bind (.when fun _ => trivial) fun _ _ =>
    .bind (.when (hdate.zero_leftPossible hd)) fun _ _ => .ok _)

private theorem swapMsg_failsOnly (s : Swap) : FailsOnly (LeftPossible checked due) (swapMsg c s) := by
  refine token_failsOnly.bind fun token _ => (amount_failsOnly _ _).bind fun amount _ => failsOnly_ofClient ?_
  unfold ExecuteMsg.ofSwap
  simp only
  split
  · exact .error trivial
  · exact .ok _

private theorem createPairMsg_failsOnly (hv : c.settings.Valid) (hp : p.binStep = none) :
    FailsOnly (LeftPossible checked due) (createPairMsg c p active) :=
  (pair_failsOnly hv hp).bind fun _ hpair => (activeBin_failsOnly (binStep_of_pair hpair)).bind fun _ _ => .ok _

/-- No command that leaves to the settings what it can fails over what it leaves to them. -/
theorem run_failsOnly {cmd : Command} (hv : c.settings.Valid) (hd : Defaulted cmd) (hdate : Dated c) :
    FailsOnly (LeftPossible c.checked c.due) (cmd.run c) := by
  cases cmd with
  | addLiquidity a => exact (addLiquidityMsg_failsOnly hv hd hdate).bind fun _ _ => .ok _
  | removeLiquidity r => exact (removeLiquidityMsg_failsOnly hv hd hdate).bind fun _ _ => .ok _
  | swap s => exact (swapMsg_failsOnly s).bind fun _ _ => .ok _
  | createPair p active => exact (createPairMsg_failsOnly hv hd).bind fun _ _ => .ok _
  | pairQuery p => exact (pair_failsOnly hv hd).bind fun _ _ => .ok _
  | presetQuery binStep =>
    cases hd
    have hq : QueryMsg.ofBinStep (c.binStep none) = .ok (.getPreset (c.binStep none)) := if_neg hv.binStep_ne
    simp only [Command.run, hq]
    exact .ok _
  | _ => exact hd.elim

end

private theorem deadline?_of_addLiquidityMsg {a : AddLiquidity} {m : ExecuteMsg} (ht : a.deadline = none)
    (h : addLiquidityMsg c a = .ok m) : ∃ d, c.deadline none = .ok d ∧ m.deadline? = some d ∧ d ≠ 0 := by
  simp only [addLiquidityMsg, Error.bind_eq_ok_iff, ofClient_eq_ok_iff, ExecuteMsg.ofAllocation_eq_ok_iff, ht] at h
  obtain ⟨_, _, _, _, _, _, _, _, d, hd, _, hne, rfl⟩ := h
  exact ⟨d, hd, rfl, hne⟩

private theorem deadline?_of_removeLiquidityMsg {r : RemoveLiquidity} {m : ExecuteMsg} (ht : r.deadline = none)
    (h : removeLiquidityMsg c r = .ok m) : ∃ d, c.deadline none = .ok d ∧ m.deadline? = some d ∧ d ≠ 0 := by
  simp only [removeLiquidityMsg, Error.bind_eq_ok_iff, ofClient_eq_ok_iff, ExecuteMsg.ofRemoval_eq_ok_iff, ht] at h
  obtain ⟨_, _, _, _, _, _, _, _, _, _, d, hd, _, _, hne, rfl⟩ := h
  exact ⟨d, hd, rfl, hne⟩

private theorem deadline?_of_swapMsg {s : Swap} {m : ExecuteMsg} (h : swapMsg c s = .ok m) : m.deadline? = none := by
  simp only [swapMsg, ExecuteMsg.ofSwap, Error.bind_eq_ok_iff, ofClient_eq_ok_iff] at h
  obtain ⟨_, _, _, _, h⟩ := h
  split at h
  · cases h
  · cases h
    rfl

private theorem deadline?_of_createPairMsg {p : PairChoice} {active : Option ActiveBin} {m : ExecuteMsg}
    (h : createPairMsg c p active = .ok m) : m.deadline? = none := by
  simp only [createPairMsg, Error.bind_eq_ok_iff] at h
  obtain ⟨_, _, _, _, h⟩ := h
  cases h
  rfl

/-- What is printed for a message has a gas limit, and the default deadline where such messages have one. -/
theorem printed_of_defaulted {cmd : Command} {made : Except CommandError ExecuteMsg} {text : String}
    (hv : c.settings.Valid) (hd : Defaulted cmd) (hmade : cmd.message? c = some made) (h : cmd.run c = .ok text) :
    ∃ contract gas m, made = .ok m ∧ text = envelope contract gas m ∧ 0 < gas.toNat ∧
      if cmd.expires then ∃ d, c.deadline none = .ok d ∧ m.deadline? = some d ∧ d ≠ 0 else m.deadline? = none := by
  have hgas (limit : UInt64) (hm : limit ∈ c.settings.gas.named.map (·.2)) : 0 < limit.toNat := by
    obtain ⟨named, hn, rfl⟩ := List.mem_map.1 hm
    exact Nat.pos_of_ne_zero fun hz => hv.gas_ne named hn (UInt64.toNat_inj.1 hz)
  cases cmd with
  | addLiquidity a =>
    cases hmade
    obtain ⟨m, hm, htext⟩ := Error.bind_eq_ok_iff.1 h
    exact ⟨_, _, m, hm, (Except.ok.inj htext).symm, hgas _ (by simp [GasSettings.named]),
      deadline?_of_addLiquidityMsg hd.2.2 hm⟩
  | removeLiquidity r =>
    cases hmade
    obtain ⟨m, hm, htext⟩ := Error.bind_eq_ok_iff.1 h
    exact ⟨_, _, m, hm, (Except.ok.inj htext).symm, hgas _ (by simp [GasSettings.named]),
      deadline?_of_removeLiquidityMsg hd.2.2 hm⟩
  | swap s =>
    cases hmade
    obtain ⟨m, hm, htext⟩ := Error.bind_eq_ok_iff.1 h
    exact ⟨_, _, m, hm, (Except.ok.inj htext).symm, hgas _ (by simp [GasSettings.named]),
      deadline?_of_swapMsg hm⟩
  | createPair p active =>
    cases hmade
    obtain ⟨m, hm, htext⟩ := Error.bind_eq_ok_iff.1 h
    exact ⟨_, _, m, hm, (Except.ok.inj htext).symm, hgas _ (by simp [GasSettings.named]),
      deadline?_of_createPairMsg hm⟩
  | _ => cases hmade

/-- Settings that were accepted, used by a clock that runs, have a default for everything that a command leaves to them.
No such command fails over a slippage, a bin step or the clock, and whatever it prints for a message has a gas limit.
The deadline is the end of the window, unless that is not of 64 bits. Then a command that needs it is aborted if
overflow is checked. If it is not, the deadline is zero where the end is exactly `2 ^ 64`, and no message that needs one
is made; behind that, messages are made whose deadline is over. -/
theorem defaults_admissible (c : Context) (hs : c.settings.validate = .ok ()) (hpos : 0 < c.now)
    (hlt : c.now < 2 ^ 63) : Dated c ∧ ∀ cmd, Defaulted cmd → Admissible c cmd := by
  have hv : c.settings.Valid := Settings.validate_eq_ok_iff.1 hs
  have hdate : Dated c := dated hpos hlt
  refine ⟨hdate, fun cmd hd => ?_⟩
  exact ⟨run_failsOnly hv hd hdate, fun _ hmade _ => printed_of_defaulted hv hd hmade⟩

private theorem eq_of_ofSettings {s : Settings} {checked : Bool} (h : Context.ofSettings s now checked = .ok c) :
    c.settings = s ∧ c.now = now ∧ c.checked = checked := by
  unfold Context.ofSettings at h
  cases hr : s.registry with
  | error e =>
    rw [hr] at h
    cases h
  | ok registry =>
    rw [hr] at h
    cases h
    exact ⟨rfl, rfl, rfl⟩

/-- The settings that clients come with, but for the window. -/
def lasting (window : UInt64) : Settings :=
  { Settings.builtin with defaults := { DefaultSettings.initial with deadlineWindowSecs := window } }

/-- A withdrawal with the settings that clients come with, at a moment of 2023. -/
theorem defaults_admissible_builtin :
    let r : RemoveLiquidity := ⟨⟨"TOKENX", "TOKENY", none⟩, [(8388608, "5")], "0", "0", none, none⟩
    ∃ c, (lasting 1200).validate = .ok () ∧ Context.ofSettings (lasting 1200) 1700000000 true = .ok c ∧
      c.deadline none = .ok 1700001200 ∧ Admissible c (.removeLiquidity r) := by
  intro r
  obtain ⟨c, hc⟩ : ∃ c, Context.ofSettings (lasting 1200) 1700000000 true = .ok c := ⟨_, rfl⟩
  obtain ⟨hsettings, hnow, -⟩ := eq_of_ofSettings hc
  have hdue : c.due = 1700001200 := by
    rw [Context.due, hsettings, hnow]
    rfl
  obtain ⟨hdate, hall⟩ := defaults_admissible c (by rw [hsettings]; rfl) (by rw [hnow]; decide)
    (by rw [hnow]; decide)
  obtain ⟨d, hd, hexact, -⟩ := hdate.exact (by rw [hdue]; decide)
  have hd' : d = 1700001200 := UInt64.toNat_inj.1 (Int.ofNat_inj.1 (hexact.trans hdue))
  exact ⟨c, rfl, hc, hd' ▸ hd, hall _ ⟨rfl, rfl, rfl⟩⟩

/-- Windows are accepted that end behind `2 ^ 64`, or that end there. A command that needs the deadline is aborted where
overflow is checked. Where it is not, its message is void before it is sent, or there is no message. -/
theorem window_wraps :
    let r : RemoveLiquidity := ⟨⟨"TOKENX", "TOKENY", none⟩, [(8388608, "5")], "0", "0", none, none⟩
    (lasting 18446744073709551615).validate = .ok () ∧ (lasting 18446744072009551616).validate = .ok () ∧
    (∃ c, Context.ofSettings (lasting 18446744073709551615) 1700000000 true = .ok c ∧
      removeLiquidityMsg c r = .error .overflow) ∧
    (∃ c params, Context.ofSettings (lasting 18446744073709551615) 1700000000 false = .ok c ∧
      removeLiquidityMsg c r = .ok (.removeLiquidity params) ∧ params.deadline = 1699999999) ∧
    ∃ c, Context.ofSettings (lasting 18446744072009551616) 1700000000 false = .ok c ∧
      removeLiquidityMsg c r = .error (.client (.schemaViolation .zeroDeadline)) := by
  exact ⟨rfl, rfl, ⟨_, rfl, rfl⟩, ⟨_, _, rfl, rfl, rfl⟩, _, rfl, rfl⟩

end Command

end LiquidityBook
