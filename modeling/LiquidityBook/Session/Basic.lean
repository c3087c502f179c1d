import LiquidityBook.Contract.Factory
import LiquidityBook.Registry
import LiquidityBook.Table

/-! A session that issues viewing keys. Each token and account has a slot for one key. While a key
for a slot is being issued, one request leads and the others for the slot wait for it. -/
namespace LiquidityBook

/-- Where the key of an account for a token is kept. -/
structure KeySlot where
  token : String
  account : String
deriving DecidableEq, Inhabited

inductive KeyState where
  | unissued
  | requested
  | cached
deriving DecidableEq

namespace Session

/-- What a session is opened with. -/
structure Setup where
  registry : TokenRegistry
  gasLimit : UInt64
  padding : String
  /-- The random bytes of the keys, in the order in which they are made. -/
  freshKey : Nat → Vector UInt8 32

/-- How far a request has come. -/
inductive Status where
  /-- It has never been polled and has looked at nothing. -/
  | fresh
  /-- It waits for its own submission, and keeps the epoch its account had at its first poll. -/
  | leading (submission : Nat) (epoch : Nat) (key : String)
  /-- It waits for the request with this number, whatever else happens to the slot. -/
  | waiting (leader : Nat)
  | finished (result : Except Error String)
  | dropped
deriving DecidableEq

namespace Status

def isLive : Status → Bool
  | finished _ | dropped => false
  | _ => true

end Status

/-- A request for the key of a slot. -/
structure Task where
  slot : KeySlot
  status : Status
deriving DecidableEq

/-- A transaction handed to the broadcaster, and what came of it as far as is known. -/
structure Submission where
  request : TxRequest
  outcome : Option (Except Error TxResponse)
deriving DecidableEq

/-- A balance query on its way. -/
structure BalanceQuery where
  slot : KeySlot
  decimals : Nat
  contract : ContractRef
  /-- The key that the query shows. -/
  key : String
  msg : QueryMsg
  answered : Bool
deriving DecidableEq

end Session

/-- The state of a session. Requests, submissions and queries are numbered from zero as they come. -/
structure Session where
  keys : Table KeySlot String
  /-- The leader of each slot whose key is being issued. -/
  inFlight : Table KeySlot Nat
  /-- How often each account was disconnected. -/
  epochs : Table String Nat
  tasks : List Session.Task
  submissions : List Session.Submission
  queries : List Session.BalanceQuery
deriving DecidableEq

namespace Session

def empty : Session := ⟨[], [], [], [], [], []⟩

instance : Inhabited Session := ⟨empty⟩

def epoch (s : Session) (account : String) : Nat := (s.epochs.find? account).getD 0

/-- The cached key; none is ever issued for this. -/
def get (s : Session) (slot : KeySlot) : Except Error String :=
  match s.keys.find? slot with
  | some key => .ok key
  | none => .error (.keyNotFound slot.token slot.account)

def state (s : Session) (slot : KeySlot) : KeyState :=
  if (s.keys.find? slot).isSome then .cached
  else if (s.inFlight.find? slot).isSome then .requested
  else .unissued

theorem state_eq_cached_iff {s : Session} {slot : KeySlot} :
    s.state slot = .cached ↔ (s.keys.find? slot).isSome := by
  simp only [state]
  cases s.keys.find? slot <;> cases s.inFlight.find? slot <;> simp

theorem state_eq_requested_iff {s : Session} {slot : KeySlot} :
    s.state slot = .requested ↔ s.keys.find? slot = none ∧ (s.inFlight.find? slot).isSome := by
  simp only [state]
  cases s.keys.find? slot <;> cases s.inFlight.find? slot <;> simp

theorem state_eq_unissued_iff {s : Session} {slot : KeySlot} :
    s.state slot = .unissued ↔ s.keys.find? slot = none ∧ s.inFlight.find? slot = none := by
  simp only [state]
  cases s.keys.find? slot <;> cases s.inFlight.find? slot <;> simp

/-- Keeps a key that was obtained elsewhere. -/
def importKey (u : Setup) (s : Session) (slot : KeySlot) (key : String) : Session × Except Error Unit :=
  match u.registry.get slot.token with
  | .error e => (s, .error e)
  | .ok _ =>
    if ViewingKey.isValid key then ({ s with keys := s.keys.insert slot key }, .ok ())
    else (s, .error (.schemaViolation .malformedViewingKey))

/-- Forgets the keys of an account and tells how many they were. Its requests go on, but their keys
will not be kept. -/
def disconnect (s : Session) (account : String) : Session × Nat :=
  let kept := s.keys.filter (·.1.account ≠ account)
  ({ s with keys := kept, epochs := s.epochs.insert account (s.epoch account + 1) },
    s.keys.length - kept.length)

end Session

end LiquidityBook
