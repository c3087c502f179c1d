import LiquidityBook.Command.Verb
import LiquidityBook.Proofs.Allocation.Withdrawal
import LiquidityBook.Proofs.Command.Outcome

/-! Positions of a withdrawal as they are written on the command line. Whatever is withdrawn is what the positions say,
in their order, and one that says no number stops the command; but a position that says nothing counts as zero. -/
namespace LiquidityBook.Command
variable {c : Context} {text : String} {before behind : List Char} {p : BinPosition} {given : UInt32 × String}

/-- What stands before the first colon and what stands behind it. -/
def Splits (text : String) (before behind : List Char) : Prop := text.toList = before ++ ':' :: behind ∧ ':' ∉ before

/-- The text names a bin and an amount of it. What stands before the first colon spells the bin, and what stands behind
it is digits; blanks at the ends of either do not count. No digits at all are the amount zero. -/
def Names (text : String) (p : BinPosition) : Prop :=
  ∃ before behind, Splits text before behind ∧ Digits.Spelled (Text.trimChars before) p.binId.value ∧
    (∀ c ∈ Text.trimChars behind, c.isDigit) ∧ Digits.value (Text.trimChars behind) = p.amount.toNat

/-- Nothing but blanks stands behind the first colon. -/
def LacksAmount (text : String) : Prop := ∃ before behind, Splits text before behind ∧ Text.trimChars behind = []

private theorem splits_iff : Splits text before behind ↔
    before = text.toList.takeWhile (· != ':') ∧ text.toList.dropWhile (· != ':') = ':' :: behind := by
  constructor
  · rintro ⟨h, hn⟩
    have hne : ∀ c ∈ before, (c != ':') = true := by
      intro c hc
      refine bne_iff_ne.2 ?_
      rintro rfl
      exact hn hc
    rw [h, List.takeWhile_append_of_pos hne, List.dropWhile_append_of_pos hne]
    simp
  · rintro ⟨rfl, hd⟩
    refine ⟨?_, ?_⟩
    · rw [← hd, List.takeWhile_append_dropWhile]
    · intro hm
      exact absurd (List.mem_takeWhile_imp hm) (by decide)

private theorem splitColon?_eq_some_iff {a b : String} :
    splitColon? text = some (a, b) ↔ Splits text a.toList b.toList := by
  rw [splits_iff, splitColon?]
  have hhead := List.head?_dropWhile_not (· != ':') text.toList
  cases hd : text.toList.dropWhile (· != ':') with
  | nil => simp
  | cons d rest =>
    rw [hd] at hhead
    have hcolon : d = ':' := by simpa using hhead
    subst hcolon
    simp only [Option.some.injEq, Prod.mk.injEq, List.cons.injEq, true_and]
    constructor
    · rintro ⟨rfl, rfl⟩
      simp
    · rintro ⟨ha, hb⟩
      rw [← ha, hb]
      simp

private theorem readPosition?_eq_some_iff : readPosition? text = some given ↔
    ∃ before behind, Splits text before behind ∧ Digits.Spelled (Text.trimChars before) given.1.toNat ∧
      given.2 = String.ofList (Text.trimChars behind) := by
  obtain ⟨id, amount⟩ := given
  simp only [readPosition?, Option.bind_eq_bind, Option.bind_eq_some_iff]
  constructor
  · rintro ⟨⟨a, b⟩, hs, n, hn, hid⟩
    split at hid
    · rename_i hlt
      cases hid
      refine ⟨a.toList, b.toList, splitColon?_eq_some_iff.1 hs, ?_, rfl⟩
      rw [UInt32.toNat_ofNat_of_lt' hlt]
      exact Digits.readNat?_eq_some_iff.1 hn
    · cases hid
  · rintro ⟨before, behind, hs, hn, rfl⟩
    refine ⟨(String.ofList before, String.ofList behind), ?_, id.toNat, ?_, ?_⟩
    · rw [splitColon?_eq_some_iff]
      simpa using hs
    · rw [Digits.readNat?_eq_some_iff]
      simpa using hn
    · rw [if_pos id.toNat_lt]
      simp [Text.trim]

private theorem positionAmount?_eq_some_iff {s : String} {amount : Uint256} : positionAmount? s = some amount ↔
    (∀ c ∈ s.toList, c.isDigit) ∧ Digits.value s.toList = amount.toNat := by
  unfold positionAmount?
  split
  · rename_i hd
    rw [List.all_eq_true] at hd
    constructor
    · intro h
      exact ⟨hd, (Uint.toNat_of_ofNat? h).symm⟩
    · rintro ⟨_, hv⟩
      rw [hv, Uint.ofNat?_toNat]
  · rename_i hd
    rw [List.all_eq_true] at hd
    exact iff_of_false nofun fun h => hd h.1

private theorem position_eq_ok_iff : position given = .ok p ↔
    p.binId.value = given.1.toNat ∧ positionAmount? given.2 = some p.amount := by
  simp only [position, Error.bind_eq_ok_iff, ofClient_eq_ok_iff, BinId.ofNat_eq_ok_iff]
  constructor
  · rintro ⟨id, hid, h⟩
    split at h
    · rename_i amount ha
      cases h
      exact ⟨hid, ha⟩
    · cases h
  · rintro ⟨hid, ha⟩
    exact ⟨p.binId, hid, by rw [ha]; rfl⟩

private theorem names_iff : Names text p ↔ ∃ given, readPosition? text = some given ∧ position given = .ok p := by
  simp only [readPosition?_eq_some_iff, position_eq_ok_iff, positionAmount?_eq_some_iff]
  constructor
  · rintro ⟨before, behind, hs, hid, hd, hv⟩
    have hlt : p.binId.value < 2 ^ 32 := Nat.lt_trans p.binId.isLt (by decide)
    refine ⟨(UInt32.ofNat p.binId.value, String.ofList (Text.trimChars behind)), ⟨before, behind, hs, ?_, rfl⟩, ?_⟩
    · rwa [UInt32.toNat_ofNat_of_lt' hlt]
    · rw [UInt32.toNat_ofNat_of_lt' hlt, String.toList_ofList]
      exact ⟨rfl, hd, hv⟩
  · rintro ⟨⟨id, amount⟩, ⟨before, behind, hs, hid, rfl⟩, hb, hd, hv⟩
    rw [String.toList_ofList] at hd hv
    exact ⟨before, behind, hs, hb ▸ hid, hd, hv⟩

private theorem Names.amount_eq_zero (h : Names text p) (hl : LacksAmount text) : p.amount.toNat = 0 := by
  obtain ⟨before, behind, hs, _, _, hv⟩ := h
  obtain ⟨before', behind', hs', hnil⟩ := hl
  have hsame : behind = behind' := by
    have hd := (splits_iff.1 hs).2.symm.trans (splits_iff.1 hs').2
    exact (List.cons.inj hd).2
  rw [hsame, hnil] at hv
  exact hv.symm

private theorem forall₂_names_iff {texts : List String} {given : List (UInt32 × String)} {ps : List BinPosition}
    (h : texts.mapM readPosition? = some given) : given.mapM position = .ok ps ↔ List.Forall₂ Names texts ps := by
  rw [CommandError.mapM_eq_ok_iff]
  induction texts generalizing given ps with
  | nil =>
    cases h
    simp
  | cons text texts ih =>
    simp only [List.mapM_cons, Option.bind_eq_bind, Option.bind_eq_some_iff] at h
    obtain ⟨first, hfirst, rest, hrest, hgiven⟩ := h
    cases hgiven
    simp only [List.forall₂_cons_left_iff, names_iff, hfirst, Option.some.injEq, exists_eq_left', ih hrest]

private theorem positions_of_readRemove? {g : Given} {r : RemoveLiquidity} (h : readRemove? g = some r) :
    (g.values "position").mapM readPosition? = some r.positions := by
  simp only [readRemove?, Option.bind_eq_bind] at h
  obtain ⟨positions, hp, h⟩ := Option.bind_eq_some_iff.1 h
  split at h
  · cases h
  · simp only [Option.bind_eq_some_iff] at h
    obtain ⟨_, _, _, _, _, _, _, _, _, _, hr⟩ := h
    cases hr
    exact hp

section
variable {r : RemoveLiquidity} {m : ExecuteMsg}

/-- A withdrawal from the command line is sent exactly as it is here, and under these conditions. -/
theorem removeLiquidityMsg_eq_ok_iff : removeLiquidityMsg c r = .ok m ↔
    ∃ pair positions x y deadline, c.pair r.pair = .ok pair ∧ r.positions.mapM position = .ok positions ∧
      Amount.toMachine r.expectedX pair.tokenX.decimals.toNat = .ok x ∧
      Amount.toMachine r.expectedY pair.tokenY.decimals.toNat = .ok y ∧
      c.slippage r.slippageBps ≤ 10000 ∧ (∃ p ∈ positions, p.amount.toNat ≠ 0) ∧ (positions.map (·.binId)).Nodup ∧
      c.deadline r.deadline = .ok deadline ∧ deadline ≠ 0 ∧
      m = .removeLiquidity {
        tokenX := pair.tokenX.tokenType
        tokenY := pair.tokenY.tokenType
        binStep := pair.binStep
        amountXMin := (slippageFloor x (c.slippage r.slippageBps)).text
        amountYMin := (slippageFloor y (c.slippage r.slippageBps)).text
        ids := positions.map (UInt32.ofNat ·.binId.value)
        amounts := positions.map (·.amount.text)
        deadline } := by
  simp only [removeLiquidityMsg, Error.bind_eq_ok_iff, ofClient_eq_ok_iff, Allocation.compileRemoval_eq_ok_iff,
    Allocation.removalRequirements, Allocation.distinctRequirement, List.forall_mem_cons,
    ExecuteMsg.ofRemoval_eq_ok_iff]
  constructor
  · rintro ⟨pair, hpair, positions, hpos, x, hx, y, hy, _, ⟨⟨hslip, _, hfunded, hdistinct, _⟩, rfl⟩,
      deadline, hdeadline,
      _, _, hd, rfl⟩
    refine ⟨pair, positions, x, y, deadline, hpair, hpos, hx, hy, hslip, hfunded, hdistinct, hdeadline, hd, ?_⟩
    simp only [List.map_map]
    rfl
  · rintro ⟨pair, positions, x, y, deadline, hpair, hpos, hx, hy, hslip, hfunded, hdistinct, hdeadline, hd, rfl⟩
    have hne : positions ≠ [] := by
      rintro rfl
      obtain ⟨_, hp, _⟩ := hfunded
      cases hp
    refine ⟨pair, hpair, positions, hpos, x, hx, y, hy, _, ⟨⟨hslip, hne, hfunded, hdistinct, List.forall_mem_nil _⟩,
      rfl⟩,
      deadline, hdeadline, by simpa using hne, by simp, hd, ?_⟩
    simp only [List.map_map]
    rfl

private theorem exists_of_forall₂ {α β : Type} {R : α → β → Prop} {as : List α} {bs : List β} {a : α}
    (h : List.Forall₂ R as bs)
    (ha : a ∈ as) : ∃ b, R a b := by
  induction h with
  | nil => cases ha
  | cons hr _ ih =>
    rcases List.mem_cons.1 ha with rfl | ha
    · exact ⟨_, hr⟩
    · exact ih ha

private theorem run_removeLiquidity (c : Context) (r : RemoveLiquidity) : (Command.removeLiquidity r).run c =
    (removeLiquidityMsg c r).map (envelope c.settings.contracts.lbRouter c.settings.gas.removeLiquidity) := by
  simp only [Command.run]
  cases removeLiquidityMsg c r <;> rfl

end

/-- A command line for a withdrawal of the tokens that clients come with. -/
def withdrawal (texts : List String) : Given where
  options := [("token-x", ["TOKENX"]), ("token-y", ["TOKENY"]), ("deadline", ["1"])] ++ texts.map (("position", [·]))
  positionals := []
  pending := none
  plain := false

def Context.builtin (now : Int) : Context := ⟨.builtin, Settings.builtin.registry.toOption.getD .empty, now, true⟩

/-- What a withdrawal from the command line needs, with the positions that its texts name. -/
structure Accepts (c : Context) (texts : List String) (r : RemoveLiquidity) (positions : List BinPosition) : Prop where
  named : List.Forall₂ Names texts positions
  distinct : (positions.map (·.binId)).Nodup
  funded : ∃ p ∈ positions, p.amount.toNat ≠ 0
  expected : ∃ pair, c.pair r.pair = .ok pair ∧
    (∃ x, Amount.toMachine r.expectedX pair.tokenX.decimals.toNat = .ok x) ∧
    ∃ y, Amount.toMachine r.expectedY pair.tokenY.decimals.toNat = .ok y
  slippage_le : c.slippage r.slippageBps ≤ 10000
  deadline : ∃ d, c.deadline r.deadline = .ok d ∧ d ≠ 0

/-- A withdrawal from the command line prints a message exactly where each of its texts names a position, no bin is
named twice, and the rest of it is in order as well. The message then has the bins and the amounts of the positions, in
the order of the texts. A text that names no position makes the whole command fail. A text that lacks an amount names
the amount zero; only where no text does, each amount is written out as digits. -/
theorem removal_takes_positions (c : Context) (g : Given) (r : RemoveLiquidity) (hr : readRemove? g = some r) :
    let texts := g.values "position"
    ((∃ printed, (Command.removeLiquidity r).run c = .ok printed) ↔ ∃ positions, Accepts c texts r positions) ∧
    (∀ printed, (Command.removeLiquidity r).run c = .ok printed → ∃ positions params, Accepts c texts r positions ∧
      params.ids.map UInt32.toNat = positions.map (·.binId.value) ∧
      params.amounts = positions.map (·.amount.toNat.repr) ∧
      printed = envelope c.settings.contracts.lbRouter c.settings.gas.removeLiquidity (.removeLiquidity params)) ∧
    ((∃ text ∈ texts, ∀ p, ¬ Names text p) → ∃ e, (Command.removeLiquidity r).run c = .error e) ∧
    ∀ text p, Names text p → (LacksAmount text → p.amount.toNat = 0) ∧
      (¬ LacksAmount text → ∃ before behind, Splits text before behind ∧
        Digits.value? (Text.trimChars behind) = some p.amount.toNat) := by
  intro texts
  have hnames {ps : List BinPosition} : r.positions.mapM position = .ok ps ↔ List.Forall₂ Names texts ps :=
    forall₂_names_iff (positions_of_readRemove? hr)
  have hsent {printed : String} (h : (Command.removeLiquidity r).run c = .ok printed) :
      ∃ positions params, Accepts c texts r positions ∧
        params.ids.map UInt32.toNat = positions.map (·.binId.value) ∧
        params.amounts = positions.map (·.amount.toNat.repr) ∧
        printed = envelope c.settings.contracts.lbRouter c.settings.gas.removeLiquidity (.removeLiquidity params) := by
    rw [run_removeLiquidity] at h
    cases hm : removeLiquidityMsg c r with
    | error e =>
      rw [hm] at h
      cases h
    | ok m =>
      rw [hm] at h
      cases h
      obtain ⟨pair, positions, x, y, d, hpair, hpos, hx, hy, hslip, hfunded, hdistinct, hd, hd0, rfl⟩ :=
        removeLiquidityMsg_eq_ok_iff.1 hm
      refine ⟨positions, _, ⟨hnames.1 hpos, hdistinct, hfunded, ⟨pair, hpair, ⟨x, hx⟩, y, hy⟩, hslip, d, hd, hd0⟩,
        ?_, rfl,
        rfl⟩
      rw [List.map_map]
      exact List.map_congr_left fun p _ => p.binId.toNat_value
  refine ⟨⟨?_, ?_⟩, fun _ => hsent, ?_, ?_⟩
  · rintro ⟨printed, h⟩
    obtain ⟨positions, _, ha, _⟩ := hsent h
    exact ⟨positions, ha⟩
  · rintro ⟨positions, ha⟩
    obtain ⟨pair, hpair, ⟨x, hx⟩, y, hy⟩ := ha.expected
    obtain ⟨d, hd, hd0⟩ := ha.deadline
    have hm := removeLiquidityMsg_eq_ok_iff.2 ⟨pair, positions, x, y, d, hpair, hnames.2 ha.named, hx, hy,
      ha.slippage_le,
      ha.funded, ha.distinct, hd, hd0, rfl⟩
    exact ⟨_, by rw [run_removeLiquidity, hm]; rfl⟩
  · rintro ⟨text, ht, hn⟩
    cases hrun : (Command.removeLiquidity r).run c with
    | error e => exact ⟨e, rfl⟩
    | ok printed =>
      obtain ⟨positions, _, ha, _⟩ := hsent hrun
      obtain ⟨p, hp⟩ := exists_of_forall₂ ha.named ht
      exact absurd hp (hn p)
  · intro text p h
    refine ⟨h.amount_eq_zero, ?_⟩
    intro hl
    obtain ⟨before, behind, hs, _, hd, hv⟩ := h
    have hne : Text.trimChars behind ≠ [] := fun hnil => hl ⟨before, behind, hs, hnil⟩
    exact ⟨before, behind, hs, Digits.value?_eq_some_iff.2 ⟨hne, hd, hv⟩⟩

/-- Blanks, a plus sign and zeros in front do not matter. -/
theorem removal_takes_positions_spaced :
    let texts := [" 8388608 : 7", "+8388609:010 "]
    let r : RemoveLiquidity := ⟨⟨"TOKENX", "TOKENY", none⟩, [(8388608, "7"), (8388609, "010")], "0", "0", none, some 1⟩
    readRemove? (withdrawal texts) = some r ∧ ∃ positions, Accepts (.builtin 0) texts r positions := by
  have hr : readRemove? (withdrawal [" 8388608 : 7", "+8388609:010 "]) =
      some ⟨⟨"TOKENX", "TOKENY", none⟩, [(8388608, "7"), (8388609, "010")], "0", "0", none, some 1⟩ := rfl
  have hm : ∃ m, removeLiquidityMsg (.builtin 0)
      ⟨⟨"TOKENX", "TOKENY", none⟩, [(8388608, "7"), (8388609, "010")], "0", "0", none, some 1⟩ = .ok m := ⟨_, rfl⟩
  refine ⟨hr, (removal_takes_positions (.builtin 0) _ _ hr).1.1 ?_⟩
  obtain ⟨m, hm⟩ := hm
  exact ⟨_, by rw [run_removeLiquidity, hm]; rfl⟩

/-- A position that lacks its amount is withdrawn as zero. -/
theorem missing_amount_is_zero :
    ∃ r params, readRemove? (withdrawal ["8388608:", "8388609:5"]) = some r ∧
      removeLiquidityMsg (.builtin 0) r = .ok (.removeLiquidity params) ∧ params.ids = [8388608, 8388609] ∧
      params.amounts = ["0", "5"] ∧ LacksAmount "8388608:" := by
  refine ⟨⟨⟨"TOKENX", "TOKENY", none⟩, [(8388608, ""), (8388609, "5")], "0", "0", none, some 1⟩,
    _, rfl, rfl, rfl, rfl, ?_⟩
  exact ⟨"8388608".toList, [], ⟨rfl, by decide⟩, rfl⟩

end LiquidityBook.Command
