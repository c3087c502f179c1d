import LiquidityBook.Proofs.Session.Failure
import LiquidityBook.Proofs.Session.Isolation

/-! Sessions seen without their keys. All keys are covered by one and the same key, which is a valid one; whatever an
operation does to a session, it does to the covered session. -/
namespace LiquidityBook

/-- The key that covers all others. -/
def ViewingKey.veil : String := ofBytes (Vector.replicate 32 (0 : UInt8)).toList

private theorem ViewingKey.isValid_veil : isValid veil := isValid_ofBytes (by simp)

open ViewingKey (veil)

def ExecuteMsg.veiled : ExecuteMsg → ExecuteMsg
  | .setViewingKey _ padding => .setViewingKey veil padding
  | msg => msg

def TxRequest.veiled (r : TxRequest) : TxRequest := { r with msg := r.msg.veiled }

def QueryMsg.veiled : QueryMsg → QueryMsg
  | .balance address _ => .balance address veil
  | msg => msg

namespace Session

/-- A key that was come to, covered. An error stays as it is. -/
def covered (result : Except Error String) : Except Error String := result.map fun _ => veil

def Setup.veiled (u : Setup) : Setup := u.withKeys fun _ => Vector.replicate 32 0

def Status.veiled : Status → Status
  | .leading n epoch _ => .leading n epoch veil
  | .finished result => .finished (covered result)
  | status => status

def Task.veiled (t : Task) : Task := ⟨t.slot, t.status.veiled⟩

def Submission.veiled (b : Submission) : Submission := ⟨b.request.veiled, b.outcome⟩

def BalanceQuery.veiled (q : BalanceQuery) : BalanceQuery := { q with key := veil, msg := q.msg.veiled }

def veiled (s : Session) : Session where
  keys := Table.mapValues s.keys fun _ => veil
  inFlight := s.inFlight
  epochs := s.epochs
  tasks := s.tasks.map Task.veiled
  submissions := s.submissions.map Submission.veiled
  queries := s.queries.map BalanceQuery.veiled

/-- An operation with the key that it brings covered. A malformed key is left out. -/
def Event.veiled : Event → Event
  | .importKey slot key => .importKey slot (if ViewingKey.isValid key then veil else "")
  | e => e

def Observation.veiled : Observation → Observation
  | .ended result => .ended (covered result)
  | .asked query => .asked (query.map QueryMsg.veiled)
  | .key result => .key (covered result)
  | o => o

variable {u : Setup} {s s' : Session} {e : Event} {o : Observation} {id n : Nat} {slot : KeySlot}
  {result : Except Error String}

private theorem key_veiled (u : Setup) (n : Nat) : u.veiled.key n = veil := rfl

private theorem issuance_veiled (u : Setup) (token : Token) (account : String) (n : Nat) :
    (u.issuance token account n).veiled = u.veiled.issuance token account n := rfl

private theorem find?_keys_veiled (s : Session) (slot : KeySlot) :
    s.veiled.keys.find? slot = (s.keys.find? slot).map fun _ => veil :=
  Table.find?_mapValues s.keys (fun _ => veil) slot

private theorem tasks_veiled {status : Status} (ht : s.tasks[id]? = some ⟨slot, status⟩) :
    s.veiled.tasks[id]? = some ⟨slot, status.veiled⟩ := by
  simp [Session.veiled, ht, Task.veiled]

private theorem statusOf?_veiled (s : Session) (id : Nat) :
    s.veiled.statusOf? id = (s.statusOf? id).map Status.veiled := by
  simp only [statusOf?, Session.veiled, List.getElem?_map, Option.map_map]
  rfl

private theorem outcomeOf?_veiled (s : Session) (n : Nat) : s.veiled.outcomeOf? n = s.outcomeOf? n := by
  simp only [outcomeOf?, Session.veiled, List.getElem?_map]
  cases s.submissions[n]? <;> rfl

private theorem isLive_veiled (status : Status) : status.veiled.isLive = status.isLive := by
  cases status <;> rfl

private theorem isLeading_veiled (status : Status) : status.veiled.isLeading = status.isLeading := by
  cases status <;> rfl

private theorem length_submissions_veiled (s : Session) : s.veiled.submissions.length = s.submissions.length := by
  simp [Session.veiled]

private theorem setStatus_veiled (s : Session) (id : Nat) (new : Status) :
    (s.setStatus id new).veiled = s.veiled.setStatus id new.veiled := by
  have hm := map_modify (f := fun t : Task => { t with status := new }) Task.veiled
    (fun t => { t with status := new.veiled }) fun _ => rfl
  simp only [Session.veiled, setStatus, hm]

private theorem start_veiled (s : Session) (slot : KeySlot) : (s.start slot).veiled = s.veiled.start slot := by
  simp [Session.veiled, start, Task.veiled, Status.veiled]

private theorem settle_veiled (s : Session) (n : Nat) (outcome : Except Error TxResponse) :
    s.veiled.settle n outcome = ((s.settle n outcome).1.veiled, (s.settle n outcome).2) := by
  have hm := map_modify (f := fun b : Submission => { b with outcome := some outcome }) Submission.veiled
    (fun b => { b with outcome := some outcome }) fun _ => rfl
  simp only [settle, Session.veiled, hm, List.length_map]

private theorem disconnect_veiled (s : Session) (account : String) :
    s.veiled.disconnect account = ((s.disconnect account).1.veiled, (s.disconnect account).2) := by
  have hk := Table.mapValues_filter s.keys (fun _ => veil) (·.account ≠ account)
  simp only [disconnect, Session.veiled, epoch]
  rw [← hk]
  simp [Table.mapValues]

private theorem finishLeader_veiled (s : Session) (id : Nat) (slot : KeySlot) (epoch : Nat) (key : String)
    (outcome : Except Error TxResponse) :
    (s.finishLeader id slot epoch key outcome).1.veiled = (s.veiled.finishLeader id slot epoch veil outcome).1 := by
  have hepoch : s.veiled.epoch slot.account = s.epoch slot.account := rfl
  have hinsert := Table.mapValues_insert s.keys (fun _ => veil) slot key
  simp only [finishLeader, finish, setStatus_veiled, hepoch]
  cases outcome.bind TxResponse.check with
  | error e => rfl
  | ok r =>
    simp only [Except.map, Except.isOk, Except.toBool, Bool.true_and]
    split
    · simp only [Session.veiled, hinsert]
      rfl
    · rfl

private theorem takeAnswer_veiled (s : Session) (q : BalanceQuery) (raw : Except Error Json) :
    takeAnswer s.veiled q.veiled raw = ((takeAnswer s q raw).1.veiled, (takeAnswer s q raw).2) := by
  have hkind : q.veiled.msg.kind = q.msg.kind := by
    simp only [BalanceQuery.veiled]
    cases q.msg <;> rfl
  have herase := Table.mapValues_erase s.keys (fun _ => veil) q.slot
  cases raw with
  | error e => rfl
  | ok json =>
    simp only [takeAnswer, hkind]
    cases QueryAnswer.ofAnswer? json with
    | none => rfl
    | some answer =>
      cases answer with
      | balance amount => rfl
      | viewingKeyError msg =>
        simp only [Session.veiled, herase]
        rfl

private theorem get_veiled (s : Session) (slot : KeySlot) : s.veiled.get slot = covered (s.get slot) := by
  simp only [get, find?_keys_veiled]
  cases s.keys.find? slot <;> rfl

theorem state_veiled (s : Session) (slot : KeySlot) : s.veiled.state slot = s.state slot := by
  simp only [state, find?_keys_veiled, Option.isSome_map]
  rfl

private theorem importKey_veiled (s s' : Session) (slot : KeySlot) (key : String) :
    (importKey u.veiled s' slot (if ViewingKey.isValid key then veil else "")).2 = (importKey u s slot key).2 := by
  simp only [importKey, Setup.veiled, Setup.withKeys]
  cases u.registry.get slot.token with
  | error e => rfl
  | ok token =>
    by_cases hv : ViewingKey.isValid key = true
    · simp [hv, ViewingKey.isValid_veil]
    · have he : ViewingKey.isValid "" = false := rfl
      simp [hv, he]

private theorem balanceQuery_veiled (hkeys : ∀ key, s.keys.find? slot = some key → key.isEmpty = false) :
    balanceQuery u.veiled s.veiled slot = (balanceQuery u s slot).map BalanceQuery.veiled := by
  have hveil : veil.isEmpty = false := by decide +kernel
  simp only [balanceQuery, get_veiled, Setup.veiled, Setup.withKeys]
  cases u.registry.get slot.token with
  | error e => rfl
  | ok token =>
    unfold get
    cases hk : s.keys.find? slot with
    | none => rfl
    | some key =>
      by_cases ha : (Text.trim slot.account).isEmpty <;>
        simp [covered, QueryMsg.ofBalance, ha, hkeys key hk, hveil, bind, Except.bind, Except.map, pure, Except.pure,
          BalanceQuery.veiled, QueryMsg.veiled]

private theorem Resolves.veiled {status : Status} (h : Resolves u s slot status result) :
    Resolves u.veiled s.veiled slot status.veiled (covered result) := by
  cases h with
  | unregistered hr => exact .unregistered hr
  | cached hr hk => exact .cached hr ((find?_keys_veiled s slot).trans (by rw [hk]; rfl))
  | shared h => exact .shared (by rw [statusOf?_veiled, h]; rfl)
  | abandoned h => exact .abandoned (by rw [statusOf?_veiled, h]; rfl)

/-- No empty key is cached, so none is too short to be shown in a query. -/
def Keyed (s : Session) : Prop := ∀ slot key, s.keys.find? slot = some key → key.isEmpty = false

private theorem Idle.veiled (h : Idle u s e o) (hkeys : Keyed s) : Idle u.veiled s.veiled e.veiled o.veiled := by
  cases h with
  | unknown h => exact .unknown (by simp [Session.veiled, h])
  | @ended id t ht hl =>
    obtain ⟨slot, status⟩ := t
    exact .ended (tasks_veiled ht) ((isLive_veiled status).trans hl)
  | unsettled ht ho => exact .unsettled (tasks_veiled ht) ((outcomeOf?_veiled s _).trans ho)
  | waiting ht hl =>
    refine .waiting (tasks_veiled ht) ?_
    intro status hs
    rw [statusOf?_veiled] at hs
    obtain ⟨old, ho, rfl⟩ := Option.map_eq_some_iff.1 hs
    exact (isLive_veiled old).trans (hl old ho)
  | notLive h =>
    refine .notLive ?_
    intro t ht
    simp only [Session.veiled, List.getElem?_map] at ht
    obtain ⟨old, ho, rfl⟩ := Option.map_eq_some_iff.1 ht
    exact (isLive_veiled old.status).trans (h old ho)
  | importRefused h => exact .importRefused ((importKey_veiled ..).trans h)
  | askRefused h => exact .askRefused (by rw [balanceQuery_veiled (hkeys _), h]; rfl)
  | unasked h =>
    refine .unasked ?_
    intro q hq
    simp only [Session.veiled, List.getElem?_map] at hq
    obtain ⟨old, ho, rfl⟩ := Option.map_eq_some_iff.1 hq
    exact h old ho
  | get slot =>
    rw [Observation.veiled, ← get_veiled]
    exact .get slot
  | state slot =>
    have hs : Observation.veiled (.state (s.state slot)) = .state (s.veiled.state slot) :=
      congrArg Observation.state (state_veiled s slot).symm
    exact hs ▸ .state slot

/-- An operation on the covered session does what it does to the session and shows the same, but for the keys. -/
theorem Transition.veiled (h : Transition u s e s' o) (hkeys : Keyed s) :
    Transition u.veiled s.veiled e.veiled s'.veiled o.veiled := by
  cases h with
  | idle h => exact .idle (h.veiled hkeys)
  | start slot =>
    rw [start_veiled]
    exact .start slot
  | resolve ht hr =>
    rw [setStatus_veiled]
    exact .resolve (tasks_veiled ht) hr.veiled
  | join ht hr hk hf =>
    rw [setStatus_veiled]
    exact .join (tasks_veiled ht) hr ((find?_keys_veiled s _).trans (by rw [hk]; rfl)) hf
  | @lead id slot token ht hr hk hf =>
    have hlead := Transition.lead (u := u.veiled) (tasks_veiled ht) hr
      ((find?_keys_veiled s slot).trans (by rw [hk]; rfl)) hf
    rw [length_submissions_veiled, key_veiled] at hlead
    have hs : veiled {
        s.setStatus id (.leading s.submissions.length (s.epoch slot.account) (u.key s.submissions.length)) with
          inFlight := s.inFlight.insert slot id
          submissions := s.submissions ++ [⟨u.issuance token slot.account s.submissions.length, none⟩] } =
        { s.veiled.setStatus id (.leading s.submissions.length (s.epoch slot.account) veil) with
          inFlight := s.inFlight.insert slot id
          submissions := s.veiled.submissions ++
            [⟨u.veiled.issuance token slot.account s.submissions.length, none⟩] } := by
      have hset := setStatus_veiled s id
        (.leading s.submissions.length (s.epoch slot.account) (u.key s.submissions.length))
      simp only [Status.veiled] at hset
      rw [← hset]
      simp [Session.veiled, Submission.veiled, issuance_veiled]
    exact hs ▸ hlead
  | @close id slot n epoch key outcome ht ho =>
    have hc : covered ((outcome.bind TxResponse.check).map fun _ => key) =
        (outcome.bind TxResponse.check).map fun _ => veil := by
      cases outcome.bind TxResponse.check <;> rfl
    rw [finishLeader_veiled, Observation.veiled, hc]
    exact .close (tasks_veiled ht) ((outcomeOf?_veiled s n).trans ho)
  | @release id slot n epoch key ht =>
    have hs : veiled { s.setStatus id .dropped with inFlight := s.inFlight.erase slot } =
        { s.veiled.setStatus id .dropped with inFlight := s.veiled.inFlight.erase slot } := by
      have hset := setStatus_veiled s id .dropped
      simp only [Status.veiled] at hset
      rw [← hset]
      rfl
    exact hs ▸ .release (tasks_veiled ht)
  | abandon ht hl hn =>
    rw [setStatus_veiled]
    exact .abandon (tasks_veiled ht) ((isLive_veiled _).trans hl) ((isLeading_veiled _).trans hn)
  | settle n outcome =>
    have hs := Transition.settle (u := u.veiled) (s := s.veiled) n outcome
    rwa [settle_veiled] at hs
  | @keep slot key token hr hv =>
    have hs : veiled { s with keys := s.keys.insert slot key } =
        { s.veiled with keys := s.veiled.keys.insert slot veil } := by
      simp only [Session.veiled, Table.mapValues_insert]
    rw [hs, Event.veiled, if_pos hv]
    exact .keep hr ViewingKey.isValid_veil
  | disconnect account =>
    have hd := Transition.disconnect (u := u.veiled) (s := s.veiled) account
    rwa [disconnect_veiled] at hd
  | @ask slot q h =>
    have hs : veiled { s with queries := s.queries ++ [q] } =
        { s.veiled with queries := s.veiled.queries ++ [q.veiled] } := by
      simp [Session.veiled]
    rw [hs]
    exact .ask (by rw [balanceQuery_veiled (hkeys slot), h]; rfl)
  | @answer n q raw hq ha =>
    have hq' : s.veiled.queries[n]? = some q.veiled := by simp [Session.veiled, hq]
    have hm := map_modify (f := fun q : BalanceQuery => { q with answered := true }) BalanceQuery.veiled
      (fun q => { q with answered := true }) fun _ => rfl
    have ht : Transition u.veiled s.veiled (.answer n raw) _ _ := .answer hq' ha
    rw [takeAnswer_veiled] at ht
    have hs : veiled { (takeAnswer s q raw).1 with
          queries := (takeAnswer s q raw).1.queries.modify n fun q => { q with answered := true } } =
        { (takeAnswer s q raw).1.veiled with
          queries := (takeAnswer s q raw).1.veiled.queries.modify n fun q => { q with answered := true } } := by
      simp only [Session.veiled, hm]
    rw [hs]
    exact ht

end Session

end LiquidityBook
