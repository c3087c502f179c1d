import LiquidityBook.Session.Basic

/-! Requests for viewing keys. A request does something only when it is polled: at its first poll it
takes the cached key, joins the leader of its slot, or leads and submits a fresh key. -/
namespace LiquidityBook.Session

/-- A new request, not polled yet. Its number is the count of those before it. -/
def start (s : Session) (slot : KeySlot) : Session :=
  { s with tasks := s.tasks ++ [⟨slot, .fresh⟩] }

def setStatus (s : Session) (id : Nat) (status : Status) : Session :=
  { s with tasks := s.tasks.modify id fun t => { t with status } }

def finish (s : Session) (id : Nat) (result : Except Error String) :
    Session × Option (Except Error String) :=
  (s.setStatus id (.finished result), some result)

/-- The transaction that sets a fresh key. -/
def keyRequest (u : Setup) (token : Token) (account key : String) : Except Error TxRequest := do
  return ⟨account, token.contract, ← ExecuteMsg.ofViewingKey key u.padding, u.gasLimit⟩

/-- Claims the slot and submits a fresh key. -/
def lead (u : Setup) (s : Session) (id : Nat) (slot : KeySlot) (token : Token) :
    Session × Option (Except Error String) :=
  let n := s.submissions.length
  let key := ViewingKey.ofBytes (u.freshKey n).toList
  match keyRequest u token slot.account key with
  | .error e => s.finish id (.error e)
  | .ok request =>
    ({ s.setStatus id (.leading n (s.epoch slot.account) key) with
        inFlight := s.inFlight.insert slot id
        submissions := s.submissions ++ [⟨request, none⟩] }, none)

def firstPoll (u : Setup) (s : Session) (id : Nat) (slot : KeySlot) :
    Session × Option (Except Error String) :=
  match u.registry.get slot.token with
  | .error e => s.finish id (.error e)
  | .ok token =>
    match s.keys.find? slot with
    | some key => s.finish id (.ok key)
    | none =>
      match s.inFlight.find? slot with
      | some leader => (s.setStatus id (.waiting leader), none)
      | none => lead u s id slot token

/-- The end of a leader whose submission is settled. Its key is kept unless the account was
disconnected after the leader's first poll; the slot is free again. -/
def finishLeader (s : Session) (id : Nat) (slot : KeySlot) (epoch : Nat) (key : String)
    (outcome : Except Error TxResponse) : Session × Option (Except Error String) :=
  let result := (outcome.bind TxResponse.check).map fun _ => key
  let keep := result.isOk && s.epoch slot.account == epoch
  { s with
    keys := if keep then s.keys.insert slot key else s.keys
    inFlight := s.inFlight.erase slot : Session }.finish id result

/-- Moves a request as far as it can go; the result is there if it ends now. -/
def poll (u : Setup) (s : Session) (id : Nat) : Session × Option (Except Error String) :=
  match s.tasks[id]? with
  | none => (s, none)
  | some ⟨slot, .fresh⟩ => firstPoll u s id slot
  | some ⟨slot, .leading n epoch key⟩ =>
    match (s.submissions[n]?).bind Submission.outcome with
    | some outcome => s.finishLeader id slot epoch key outcome
    | none => (s, none)
  | some ⟨slot, .waiting leader⟩ =>
    match (s.tasks[leader]?).map Task.status with
    | some (.finished result) => s.finish id result
    | some .dropped => s.finish id (.error (.requestAbandoned slot.token))
    | _ => (s, none)
  | some ⟨_, .finished _⟩ | some ⟨_, .dropped⟩ => (s, none)

/-- Gives a request up, and tells whether it was still live. A leader frees its slot. -/
def drop (s : Session) (id : Nat) : Session × Bool :=
  match s.tasks[id]? with
  | some ⟨slot, .leading ..⟩ =>
    ({ s.setStatus id .dropped with inFlight := s.inFlight.erase slot }, true)
  | some ⟨_, status⟩ => if status.isLive then (s.setStatus id .dropped, true) else (s, false)
  | none => (s, false)

/-- The broadcaster's outcome of a submission, and whether there is such a submission. -/
def settle (s : Session) (n : Nat) (outcome : Except Error TxResponse) : Session × Bool :=
  ({ s with submissions := s.submissions.modify n fun b => { b with outcome := some outcome } },
    n < s.submissions.length)

def live (s : Session) : List Nat :=
  (List.range s.tasks.length).filter fun id => ((s.tasks[id]?).map (·.status.isLive)).getD false

/-- Polls the given requests in order; those that end come with their results. -/
def pollEach (u : Setup) (s : Session) : List Nat → Session × List (Nat × Except Error String)
  | [] => (s, [])
  | id :: ids =>
    let (s, result) := poll u s id
    let (s, rest) := pollEach u s ids
    (s, (result.map ((id, ·))).toList ++ rest)

/-- Polls all live requests, over and over until a pass ends none. Every pass but the last ends at
least one, so one pass more than there are live requests is enough. -/
def pollAll (u : Setup) (s : Session) : Session × List (Nat × Except Error String) :=
  passes s.live.length s
where
  passes : Nat → Session → Session × List (Nat × Except Error String)
    | 0, s => pollEach u s s.live
    | left + 1, s =>
      let (s, done) := pollEach u s s.live
      if done.isEmpty then (s, [])
      else
        let (s, rest) := passes left s
        (s, done ++ rest)

end LiquidityBook.Session
