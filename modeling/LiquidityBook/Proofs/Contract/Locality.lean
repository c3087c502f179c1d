import LiquidityBook.Contract.Factory

/-! Local errors and the network. An operation that sends a query fails with a local error both before the query is
sent and after it is answered, and with another error only where the answer does not come. -/
namespace LiquidityBook
variable {α β : Type}

def Remote (outcome : Except Error α) : Prop := ∀ e, outcome = .error e → e.isLocal = false

/-- If the result is an error, then it is a local one exactly under the condition. -/
def LocalIff (result : Except Error α) (p : Prop) : Prop := ∀ e, result = .error e → (e.isLocal ↔ p)

/-- Each of the queries got an answer, whatever it says. -/
def Answered (querier : Querier) (queries : List (ContractRef × QueryMsg)) : Prop :=
  ∀ q ∈ queries, ∃ json, querier q.1 q.2 = .ok json

/-- What the errors of an operation tell about the queries that it sent, where some answers are of use to it. -/
structure Tells (querier : Querier) (usable : Json → Prop) (x : Queried α) : Prop where
  /-- An error is local unless a query was sent that got no answer. -/
  answered : LocalIff x.1 (Answered querier x.2)
  /-- That the local errors are those before any query holds exactly where every answer that came is of use. -/
  unsent_iff : LocalIff x.1 (x.2 = []) ↔ ∀ q ∈ x.2, ∀ json, querier q.1 q.2 = .ok json → usable json

section
variable {querier : Querier} {usable : Json → Prop} {contract : ContractRef} {msg : QueryMsg}

theorem Tells.of_refused {e : Error} (h : e.isLocal) : Tells querier usable ((.error e, []) : Queried α) where
  answered := by
    rintro _ ⟨⟩
    exact iff_of_true h nofun
  unsent_iff := by
    refine iff_of_true ?_ nofun
    rintro _ ⟨⟩
    exact iff_of_true h rfl

theorem Tells.of_query {read : Json → Except Error α} (hread : ∀ json e, read json = .error e → e.isLocal)
    (husable : ∀ json, usable json ↔ ∃ a, read json = .ok a) (hq : Remote (querier contract msg)) :
    Tells querier usable (((querier contract msg).bind read, [(contract, msg)]) : Queried α) := by
  cases ha : querier contract msg with
  | error fault =>
    -- The querier's own error is handed on.
    have hremote := hq fault ha
    constructor
    · rintro _ ⟨⟩
      simp [Answered, ha, hremote]
    · simp [LocalIff, Except.bind, ha, hremote]
  | ok json =>
    constructor
    · intro e he
      exact iff_of_true (hread json e he) (by simp [Answered, ha])
    · have hbind : (Except.ok json : Except Error Json).bind read = read json := rfl
      have hiff : (∀ q ∈ [(contract, msg)], ∀ j, querier q.1 q.2 = .ok j → usable j) ↔ ∃ a, read json = .ok a := by
        simp [ha, husable]
      rw [hiff, hbind]
      cases hr : read json with
      | error e => simp [LocalIff, hread json e hr]
      | ok a => simp [LocalIff]

end

private theorem Remote.localIff {result : Except Error α} {p : Prop} (h : Remote result) (hp : ¬ p) :
    LocalIff result p := by
  intro e he
  exact iff_of_false (by simp [h e he]) hp

theorem Remote.map {outcome : Except Error α} (h : Remote outcome) (f : α → β) : Remote (outcome.map f) := by
  intro e he
  cases outcome with
  | error fault =>
    cases he
    exact h _ rfl
  | ok a => cases he

/-- The chain's report of a failure is no local error. -/
theorem Remote.check {outcome : Except Error TxResponse} (h : Remote outcome) :
    Remote (outcome.bind TxResponse.check) := by
  intro e he
  rcases Error.bind_eq_error_iff.1 he with he | ⟨r, _, he⟩
  · exact h e he
  · unfold TxResponse.check at he
    split at he
    · cases he
    · cases he
      rfl

/-- A broadcast fails with a local error exactly where nothing was handed to the broadcaster, which never happens. -/
theorem localIff_submitChecked {broadcast : TxRequest → Except Error TxResponse} {request : TxRequest}
    (h : Remote (broadcast request)) :
    LocalIff (submitChecked broadcast request).1 ((submitChecked broadcast request).2 = []) :=
  h.check.localIff nofun

namespace Factory
variable {querier : Querier} {factory : ContractRef} {msg : QueryMsg} {pair : Pair} {binStep : UInt16}

def decode (read : Json → Option α) (kind : String) (json : Json) : Except Error α :=
  match read json with
  | some a => .ok a
  | none => .error (.schemaViolation (.unexpectedAnswer kind))

private theorem ask_eq (read : Json → Option α) (querier : Querier) (factory : ContractRef) (msg : QueryMsg) :
    ask read querier factory msg = ((querier factory msg).bind (decode read msg.kind), [(factory, msg)]) := by
  unfold ask
  cases querier factory msg with
  | error e => rfl
  | ok json =>
    cases hr : read json <;> simp only [Except.bind, decode, hr]

private theorem decode_eq_error {read : Json → Option α} {kind : String} {json : Json} {e : Error}
    (h : decode read kind json = .error e) : e.isLocal := by
  unfold decode at h
  split at h
  · cases h
  · cases h
    rfl

private theorem decode_eq_ok_iff {read : Json → Option α} {kind : String} {json : Json} {a : α} :
    decode read kind json = .ok a ↔ read json = some a := by
  unfold decode
  cases read json <;> simp

private theorem checkBinStep_eq_ok_iff {info info' : LbPairInformation} : checkBinStep pair info = .ok info' ↔
    (info.binStep = pair.binStep ∧ info.lbPair.binStep = pair.binStep) ∧ info = info' := by
  unfold checkBinStep
  split <;> simp [*]

private theorem checkBinStep_eq_error {info : LbPairInformation} {e : Error} (h : checkBinStep pair info = .error e) :
    e.isLocal := by
  unfold checkBinStep at h
  split at h
  · cases h
  · cases h
    rfl

/-- The answer is information about the bin step of the pair, in both places that name one. -/
def Informs (pair : Pair) (json : Json) : Prop :=
  ∃ r, LbPairInformationResponse.ofAnswer? json = some r ∧
    r.lbPairInformation.binStep = pair.binStep ∧ r.lbPairInformation.lbPair.binStep = pair.binStep

def readPair (pair : Pair) (json : Json) : Except Error LbPairInformation :=
  (decode LbPairInformationResponse.ofAnswer? (QueryMsg.ofPair pair).kind json).bind fun r =>
    checkBinStep pair r.lbPairInformation

private theorem pairInformation_eq (querier : Querier) (factory : ContractRef) (pair : Pair) :
    pairInformation querier factory pair =
      ((querier factory (.ofPair pair)).bind (readPair pair), [(factory, .ofPair pair)]) := by
  rw [pairInformation, ask_eq]
  cases querier factory (.ofPair pair) <;> rfl

private theorem readPair_eq_error {json : Json} {e : Error} (h : readPair pair json = .error e) : e.isLocal := by
  rcases Error.bind_eq_error_iff.1 h with h | ⟨_, _, h⟩
  · exact decode_eq_error h
  · exact checkBinStep_eq_error h

private theorem informs_iff {json : Json} : Informs pair json ↔ ∃ info, readPair pair json = .ok info := by
  constructor
  · rintro ⟨r, hr, hb⟩
    exact ⟨_, Error.bind_eq_ok_iff.2 ⟨r, decode_eq_ok_iff.2 hr, checkBinStep_eq_ok_iff.2 ⟨hb, rfl⟩⟩⟩
  · rintro ⟨info, h⟩
    obtain ⟨r, hr, hc⟩ := Error.bind_eq_ok_iff.1 h
    exact ⟨r, decode_eq_ok_iff.1 hr, (checkBinStep_eq_ok_iff.1 hc).1⟩

theorem pairInformation_tells (h : Remote (querier factory (.ofPair pair))) :
    Tells querier (Informs pair) (pairInformation querier factory pair) := by
  rw [pairInformation_eq]
  exact .of_query (fun _ _ => readPair_eq_error) (fun _ => informs_iff) h

theorem resolvePairContract_tells (h : Remote (querier factory (.ofPair pair))) :
    Tells querier (Informs pair) (resolvePairContract querier factory pair) := by
  have hmap : (resolvePairContract querier factory pair) =
      ((querier factory (.ofPair pair)).bind fun json => (readPair pair json).map (·.lbPair.contract),
        [(factory, .ofPair pair)]) := by
    rw [resolvePairContract, pairInformation_eq]
    cases querier factory (.ofPair pair) <;> rfl
  rw [hmap]
  refine .of_query ?_ ?_ h
  · intro json e he
    cases hr : readPair pair json with
    | error _ =>
      rw [hr] at he
      cases he
      exact readPair_eq_error hr
    | ok _ =>
      rw [hr] at he
      cases he
  · intro json
    rw [informs_iff]
    cases readPair pair json <;> simp [Except.map]

/-- The bin step zero is refused before anything is asked. -/
theorem preset_tells (h : ∀ msg, Remote (querier factory msg)) :
    Tells querier (fun json => (PresetResponse.ofAnswer? json).isSome) (preset querier factory binStep) := by
  unfold preset
  cases hm : QueryMsg.ofBinStep binStep with
  | error e =>
    refine .of_refused ?_
    unfold QueryMsg.ofBinStep at hm
    split at hm
    · cases hm
      rfl
    · cases hm
  | ok msg =>
    simp only [ask_eq]
    refine .of_query (fun _ _ => decode_eq_error) (fun json => ?_) (h msg)
    simp [decode_eq_ok_iff, Option.isSome_iff_exists]

end Factory

end LiquidityBook
