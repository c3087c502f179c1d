import LiquidityBook.Session.Basic

/-! Balances, read with cached viewing keys. Between the query and its answer anything else may
happen to the session. -/
namespace LiquidityBook.Session

/-- The query for a balance, if there is a key to ask with. -/
def balanceQuery (u : Setup) (s : Session) (slot : KeySlot) : Except Error BalanceQuery := do
  let token ← u.registry.get slot.token
  let key ← s.get slot
  return {
    slot
    decimals := token.decimals.toNat
    contract := token.contract
    key
    msg := ← QueryMsg.ofBalance slot.account key
    answered := false }

/-- What an answer amounts to. A refusal of the key takes the slot's key out of the cache. -/
def takeAnswer (s : Session) (q : BalanceQuery) (answer : Except Error Json) : Session × Except Error String :=
  match answer with
  | .error e => (s, .error e)
  | .ok raw =>
    match QueryAnswer.ofAnswer? raw with
    | none => (s, .error (.schemaViolation (.unexpectedAnswer q.msg.kind)))
    | some (.balance amount) => (s, Amount.toHuman amount q.decimals none)
    | some (.viewingKeyError _) =>
      ({ s with keys := s.keys.erase q.slot }, .error (.keyNotFound q.slot.token q.slot.account))

def ask (u : Setup) (s : Session) (slot : KeySlot) : Session × Except Error QueryMsg :=
  match balanceQuery u s slot with
  | .error e => (s, .error e)
  | .ok q => ({ s with queries := s.queries ++ [q] }, .ok q.msg)

/-- Takes the answer to a query that has none yet. -/
def answer (s : Session) (n : Nat) (answer : Except Error Json) : Session × Option (Except Error String) :=
  match s.queries[n]? with
  | none => (s, none)
  | some q =>
    if q.answered then (s, none)
    else
      let (s, result) := takeAnswer s q answer
      ({ s with queries := s.queries.modify n fun q => { q with answered := true } }, some result)

/-- A balance in human units, when nothing happens between the query and its answer. -/
def balance (u : Setup) (s : Session) (slot : KeySlot) (querier : Querier) : Session × Queried String :=
  match balanceQuery u s slot with
  | .error e => (s, .error e, [])
  | .ok q =>
    let (s, result) := takeAnswer s q (querier q.contract q.msg)
    (s, result, [(q.contract, q.msg)])

end LiquidityBook.Session
