import LiquidityBook.Session.Balance
import LiquidityBook.Session.Request

/-! Runs of a session: any operations in any order, with what each of them shows. -/
namespace LiquidityBook.Session

/-- One operation on a session. -/
inductive Event where
  | start (slot : KeySlot)
  | poll (task : Nat)
  | drop (task : Nat)
  | settle (submission : Nat) (outcome : Except Error TxResponse)
  | importKey (slot : KeySlot) (key : String)
  | disconnect (account : String)
  | ask (slot : KeySlot)
  | answer (query : Nat) (answer : Except Error Json)
  | get (slot : KeySlot)
  | state (slot : KeySlot)

/-- What an operation shows to whoever called it. -/
inductive Observation where
  | nothing
  | ended (result : Except Error String)
  | wasThere (yes : Bool)
  | imported (result : Except Error Unit)
  | forgotten (count : Nat)
  | asked (query : Except Error QueryMsg)
  | balance (result : Except Error String)
  | key (result : Except Error String)
  | state (state : KeyState)
deriving DecidableEq

def step (u : Setup) (s : Session) : Event → Session × Observation
  | .start slot => (s.start slot, .nothing)
  | .poll task =>
    let (s, result) := poll u s task
    (s, result.elim .nothing .ended)
  | .drop task =>
    let (s, live) := s.drop task
    (s, .wasThere live)
  | .settle n outcome =>
    let (s, there) := s.settle n outcome
    (s, .wasThere there)
  | .importKey slot key =>
    let (s, result) := importKey u s slot key
    (s, .imported result)
  | .disconnect account =>
    let (s, count) := s.disconnect account
    (s, .forgotten count)
  | .ask slot =>
    let (s, query) := ask u s slot
    (s, .asked query)
  | .answer n raw =>
    let (s, result) := s.answer n raw
    (s, result.elim .nothing .balance)
  | .get slot => (s, .key (s.get slot))
  | .state slot => (s, .state (s.state slot))

/-- The state after a run, and what each of its operations showed. -/
def run (u : Setup) (s : Session) : List Event → Session × List Observation
  | [] => (s, [])
  | e :: es =>
    let (s, seen) := step u s e
    let (s, rest) := run u s es
    (s, seen :: rest)

end LiquidityBook.Session
