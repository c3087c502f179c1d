import LiquidityBook.Session.Run

/-! What one operation can do to a session. Each case of `Transition` names an effect with the
condition under which it happens, and `step_transition` says that there are no others. -/
namespace LiquidityBook.Session

/-- The key made for the submission of that number. -/
def Setup.key (u : Setup) (n : Nat) : String := ViewingKey.ofBytes (u.freshKey n).toList

/-- The transaction that sets this key. -/
def Setup.issuance (u : Setup) (token : Token) (account : String) (n : Nat) : TxRequest :=
  ⟨account, token.contract, .setViewingKey (u.key n) u.padding, u.gasLimit⟩

/-- Sessions for one token. Each fresh key repeats the number of its submission. -/
def Setup.single (token : Token) : Setup where
  registry := (TokenRegistry.ofList [token]).toOption.getD .empty
  gasLimit := 40000
  padding := "one amber club"
  freshKey n := Vector.replicate 32 (UInt8.ofNat n)

def accepted : Except Error TxResponse := .ok ⟨0, "", 21000, some "HASH"⟩

theorem Setup.key_isValid (u : Setup) (n : Nat) : ViewingKey.isValid (u.key n) :=
  ViewingKey.isValid_ofBytes (by simp)

private theorem keyRequest_key (u : Setup) (token : Token) (account : String) (n : Nat) :
    keyRequest u token account (u.key n) = .ok (u.issuance token account n) := by
  simp only [keyRequest, ExecuteMsg.ofViewingKey, u.key_isValid n, if_true]
  rfl

def statusOf? (s : Session) (id : Nat) : Option Status := (s.tasks[id]?).map Task.status

def outcomeOf? (s : Session) (n : Nat) : Option (Except Error TxResponse) :=
  (s.submissions[n]?).bind Submission.outcome

def Status.isLeading : Status → Bool
  | .leading .. => true
  | _ => false

/-- The request holds the slot: it claimed it and has neither ended nor been dropped. -/
def Leads (s : Session) (id : Nat) (slot : KeySlot) : Prop :=
  ∃ n epoch key, s.tasks[id]? = some ⟨slot, .leading n epoch key⟩

/-- How a request that does not lead comes to its result. -/
inductive Resolves (u : Setup) (s : Session) (slot : KeySlot) : Status → Except Error String → Prop where
  | unregistered {e} (h : u.registry.get slot.token = .error e) : Resolves u s slot .fresh (.error e)
  | cached {token key} (hr : u.registry.get slot.token = .ok token) (hk : s.keys.find? slot = some key) :
      Resolves u s slot .fresh (.ok key)
  | shared {leader result} (h : s.statusOf? leader = some (.finished result)) :
      Resolves u s slot (.waiting leader) result
  | abandoned {leader} (h : s.statusOf? leader = some .dropped) :
      Resolves u s slot (.waiting leader) (.error (.requestAbandoned slot.token))

/-- The operations that leave a session as it is, and what they show. -/
inductive Idle (u : Setup) (s : Session) : Event → Observation → Prop where
  | unknown {id} (h : s.tasks[id]? = none) : Idle u s (.poll id) .nothing
  | ended {id t} (ht : s.tasks[id]? = some t) (hl : t.status.isLive = false) : Idle u s (.poll id) .nothing
  | unsettled {id slot n epoch key} (ht : s.tasks[id]? = some ⟨slot, .leading n epoch key⟩)
      (ho : s.outcomeOf? n = none) : Idle u s (.poll id) .nothing
  | waiting {id slot leader} (ht : s.tasks[id]? = some ⟨slot, .waiting leader⟩)
      (hl : ∀ status, s.statusOf? leader = some status → status.isLive) : Idle u s (.poll id) .nothing
  | notLive {id} (h : ∀ t, s.tasks[id]? = some t → t.status.isLive = false) :
      Idle u s (.drop id) (.wasThere false)
  | importRefused {slot key e} (h : (importKey u s slot key).2 = .error e) :
      Idle u s (.importKey slot key) (.imported (.error e))
  | askRefused {slot e} (h : balanceQuery u s slot = .error e) : Idle u s (.ask slot) (.asked (.error e))
  | unasked {n raw} (h : ∀ q, s.queries[n]? = some q → q.answered) : Idle u s (.answer n raw) .nothing
  | get (slot) : Idle u s (.get slot) (.key (s.get slot))
  | state (slot) : Idle u s (.state slot) (.state (s.state slot))

/-- Everything that an operation can do. -/
inductive Transition (u : Setup) (s : Session) : Event → Session → Observation → Prop where
  | idle {e o} (h : Idle u s e o) : Transition u s e s o
  | start (slot) : Transition u s (.start slot) (s.start slot) .nothing
  | resolve {id slot status result} (ht : s.tasks[id]? = some ⟨slot, status⟩)
      (h : Resolves u s slot status result) :
      Transition u s (.poll id) (s.setStatus id (.finished result)) (.ended result)
  | join {id slot token leader} (ht : s.tasks[id]? = some ⟨slot, .fresh⟩)
      (hr : u.registry.get slot.token = .ok token) (hk : s.keys.find? slot = none)
      (hf : s.inFlight.find? slot = some leader) :
      Transition u s (.poll id) (s.setStatus id (.waiting leader)) .nothing
  | lead {id slot token} (ht : s.tasks[id]? = some ⟨slot, .fresh⟩)
      (hr : u.registry.get slot.token = .ok token) (hk : s.keys.find? slot = none)
      (hf : s.inFlight.find? slot = none) :
      Transition u s (.poll id)
        { s.setStatus id (.leading s.submissions.length (s.epoch slot.account) (u.key s.submissions.length)) with
          inFlight := s.inFlight.insert slot id
          submissions := s.submissions ++ [⟨u.issuance token slot.account s.submissions.length, none⟩] }
        .nothing
  | close {id slot n epoch key outcome} (ht : s.tasks[id]? = some ⟨slot, .leading n epoch key⟩)
      (ho : s.outcomeOf? n = some outcome) :
      Transition u s (.poll id) (s.finishLeader id slot epoch key outcome).1
        (.ended ((outcome.bind TxResponse.check).map fun _ => key))
  | release {id slot n epoch key} (ht : s.tasks[id]? = some ⟨slot, .leading n epoch key⟩) :
      Transition u s (.drop id) { s.setStatus id .dropped with inFlight := s.inFlight.erase slot }
        (.wasThere true)
  | abandon {id slot status} (ht : s.tasks[id]? = some ⟨slot, status⟩) (hl : status.isLive)
      (hn : status.isLeading = false) :
      Transition u s (.drop id) (s.setStatus id .dropped) (.wasThere true)
  | settle (n outcome) :
      Transition u s (.settle n outcome) (s.settle n outcome).1 (.wasThere (s.settle n outcome).2)
  | keep {slot key token} (hr : u.registry.get slot.token = .ok token) (hv : ViewingKey.isValid key) :
      Transition u s (.importKey slot key) { s with keys := s.keys.insert slot key } (.imported (.ok ()))
  | disconnect (account) :
      Transition u s (.disconnect account) (s.disconnect account).1 (.forgotten (s.disconnect account).2)
  | ask {slot q} (h : balanceQuery u s slot = .ok q) :
      Transition u s (.ask slot) { s with queries := s.queries ++ [q] } (.asked (.ok q.msg))
  | answer {n q raw} (hq : s.queries[n]? = some q) (ha : q.answered = false) :
      Transition u s (.answer n raw)
        { (takeAnswer s q raw).1 with
          queries := (takeAnswer s q raw).1.queries.modify n fun q => { q with answered := true } }
        (.balance (takeAnswer s q raw).2)

private theorem firstPoll_transition {u : Setup} {s : Session} {id : Nat} {slot : KeySlot}
    (ht : s.tasks[id]? = some ⟨slot, .fresh⟩) :
    Transition u s (.poll id) (firstPoll u s id slot).1
      ((firstPoll u s id slot).2.elim .nothing .ended) := by
  simp only [firstPoll]
  cases hr : u.registry.get slot.token with
  | error e => exact .resolve ht (.unregistered hr)
  | ok token =>
    cases hk : s.keys.find? slot with
    | some key => exact .resolve ht (.cached hr hk)
    | none =>
      cases hf : s.inFlight.find? slot with
      | some leader => exact .join ht hr hk hf
      | none =>
        have hq := keyRequest_key u token slot.account s.submissions.length
        simp only [Setup.key] at hq
        simp only [lead, hq]
        exact .lead ht hr hk hf

private theorem poll_transition (u : Setup) (s : Session) (id : Nat) :
    Transition u s (.poll id) (poll u s id).1 ((poll u s id).2.elim .nothing .ended) := by
  cases ht : s.tasks[id]? with
  | none =>
    simp only [poll, ht]
    exact .idle (.unknown ht)
  | some t =>
    obtain ⟨slot, status⟩ := t
    cases status with
    | fresh =>
      simp only [poll, ht]
      exact firstPoll_transition ht
    | leading n epoch key =>
      cases ho : (s.submissions[n]?).bind Submission.outcome with
      | none =>
        simp only [poll, ht, ho]
        exact .idle (.unsettled ht ho)
      | some outcome =>
        simp only [poll, ht, ho]
        exact .close ht ho
    | waiting leader =>
      cases hs : (s.tasks[leader]?).map Task.status with
      | none =>
        simp only [poll, ht, hs]
        exact .idle (.waiting ht (by simp [statusOf?, hs]))
      | some status =>
        cases status with
        | finished result =>
          simp only [poll, ht, hs]
          exact .resolve ht (.shared hs)
        | dropped =>
          simp only [poll, ht, hs]
          exact .resolve ht (.abandoned hs)
        | _ =>
          simp only [poll, ht, hs]
          exact .idle (.waiting ht (by simp [statusOf?, hs, Status.isLive]))
    | finished result =>
      simp only [poll, ht]
      exact .idle (.ended ht rfl)
    | dropped =>
      simp only [poll, ht]
      exact .idle (.ended ht rfl)

private theorem drop_transition (u : Setup) (s : Session) (id : Nat) :
    Transition u s (.drop id) (s.drop id).1 (.wasThere (s.drop id).2) := by
  cases ht : s.tasks[id]? with
  | none =>
    simp only [drop, ht]
    exact .idle (.notLive (by simp [ht]))
  | some t =>
    obtain ⟨slot, status⟩ := t
    cases status with
    | leading n epoch key =>
      simp only [drop, ht]
      exact .release ht
    | fresh =>
      simp only [drop, ht]
      exact .abandon ht rfl rfl
    | waiting leader =>
      simp only [drop, ht]
      exact .abandon ht rfl rfl
    | finished result =>
      simp only [drop, ht]
      exact .idle (.notLive (by simp [ht, Status.isLive]))
    | dropped =>
      simp only [drop, ht]
      exact .idle (.notLive (by simp [ht, Status.isLive]))

private theorem importKey_transition (u : Setup) (s : Session) (slot : KeySlot) (key : String) :
    Transition u s (.importKey slot key) (importKey u s slot key).1 (.imported (importKey u s slot key).2) := by
  cases hr : u.registry.get slot.token with
  | error e =>
    have hi : importKey u s slot key = (s, .error e) := by simp only [importKey, hr]
    rw [hi]
    exact .idle (.importRefused (congrArg Prod.snd hi))
  | ok token =>
    by_cases hv : ViewingKey.isValid key = true
    · simp only [importKey, hr, hv, if_true]
      exact .keep hr hv
    · have hi : importKey u s slot key = (s, .error (.schemaViolation .malformedViewingKey)) := by
        simp only [importKey, hr, hv, Bool.false_eq_true, if_false]
      rw [hi]
      exact .idle (.importRefused (congrArg Prod.snd hi))

private theorem answer_transition (u : Setup) (s : Session) (n : Nat) (raw : Except Error Json) :
    Transition u s (.answer n raw) (s.answer n raw).1 ((s.answer n raw).2.elim .nothing .balance) := by
  cases hq : s.queries[n]? with
  | none =>
    simp only [answer, hq]
    exact .idle (.unasked (by simp [hq]))
  | some q =>
    cases ha : q.answered with
    | true =>
      simp only [answer, hq, ha, if_true]
      exact .idle (.unasked (by simp [hq, ha]))
    | false =>
      simp only [answer, hq, ha, Bool.false_eq_true, if_false]
      exact .answer hq ha

/-- A step is one of the transitions. -/
theorem step_transition (u : Setup) (s : Session) (e : Event) :
    Transition u s e (step u s e).1 (step u s e).2 := by
  cases e with
  | start slot => exact .start slot
  | poll id => exact poll_transition u s id
  | drop id => exact drop_transition u s id
  | settle n outcome => exact .settle n outcome
  | importKey slot key => exact importKey_transition u s slot key
  | disconnect account => exact .disconnect account
  | ask slot =>
    simp only [step, ask]
    cases h : balanceQuery u s slot with
    | error e => exact .idle (.askRefused h)
    | ok q => exact .ask h
  | answer n raw => exact answer_transition u s n raw
  | get slot => exact .idle (.get slot)
  | state slot => exact .idle (.state slot)

theorem Idle.step_eq {u : Setup} {s : Session} {e : Event} {o : Observation} (h : Idle u s e o) :
    step u s e = (s, o) := by
  cases h with
  | unknown h => simp [step, poll, h]
  | @ended id t ht hl =>
    obtain ⟨slot, status⟩ := t
    cases status with
    | finished _ | dropped => simp [step, poll, ht]
    | _ => cases hl
  | unsettled ht ho =>
    simp only [outcomeOf?] at ho
    simp [step, poll, ht, ho]
  | @waiting id slot leader ht hl =>
    cases hs : s.statusOf? leader with
    | none =>
      simp only [statusOf?] at hs
      simp [step, poll, ht, hs]
    | some status =>
      have hlive := hl status hs
      simp only [statusOf?] at hs
      cases status with
      | finished _ | dropped => cases hlive
      | _ => simp [step, poll, ht, hs]
  | @notLive id h =>
    cases ht : s.tasks[id]? with
    | none => simp [step, drop, ht]
    | some t =>
      obtain ⟨slot, status⟩ := t
      have hl := h _ ht
      cases status with
      | finished _ | dropped => simp [step, drop, ht, Status.isLive]
      | _ => cases hl
  | @importRefused slot key e h =>
    have hs : (importKey u s slot key).1 = s := by
      cases hr : u.registry.get slot.token with
      | error _ => simp only [importKey, hr]
      | ok _ =>
        by_cases hv : ViewingKey.isValid key
        · simp [importKey, hr, hv] at h
        · simp [importKey, hr, hv]
    simp [step, h, hs]
  | askRefused h => simp [step, Session.ask, h]
  | @unasked n raw h =>
    cases hq : s.queries[n]? with
    | none => simp [step, Session.answer, hq]
    | some q => simp [step, Session.answer, hq, h q hq]
  | get _ | state _ => rfl

/-- An operation has no transition but its step. -/
theorem Transition.step_eq {u : Setup} {s s' : Session} {e : Event} {o : Observation} (h : Transition u s e s' o) :
    step u s e = (s', o) := by
  cases h with
  | idle hi => exact hi.step_eq
  | start _ | settle _ _ | disconnect _ => rfl
  | resolve ht hr =>
    cases hr with
    | unregistered hr => simp [step, poll, ht, firstPoll, hr, finish]
    | cached hr hk => simp [step, poll, ht, firstPoll, hr, hk, finish]
    | shared h | abandoned h =>
      simp only [statusOf?] at h
      simp [step, poll, ht, h, finish]
  | join ht hr hk hf => simp [step, poll, ht, firstPoll, hr, hk, hf]
  | @lead id slot token ht hr hk hf =>
    have hq := keyRequest_key u token slot.account s.submissions.length
    simp only [Setup.key] at hq
    simp [step, poll, ht, firstPoll, hr, hk, hf, Session.lead, hq, Setup.key]
  | close ht ho =>
    simp only [outcomeOf?] at ho
    simp [step, poll, ht, ho, finishLeader, finish]
  | release ht => simp [step, drop, ht]
  | @abandon id slot status ht hl hn =>
    cases status with
    | fresh | waiting _ => simp [step, drop, ht, Status.isLive]
    | leading _ _ _ => cases hn
    | finished _ | dropped => cases hl
  | keep hr hv => simp [step, importKey, hr, hv]
  | ask h => simp [step, Session.ask, h]
  | answer hq ha => simp [step, Session.answer, hq, ha]

end LiquidityBook.Session
