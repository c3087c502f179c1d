import LiquidityBook.Proofs.Amount.RoundTrip
import LiquidityBook.Proofs.Session.Eviction
import LiquidityBook.Proofs.Session.SingleFlight

/-! Operations that fail. Whatever makes an operation end in an error or gives a request up, the keys and the epochs
stay as they are, and of the slots in flight only the one that the ending request led is freed. -/
namespace LiquidityBook

private theorem TxResponse.check_eq_error_iff {α : Type} {outcome : Except Error TxResponse} {a : α} {e : Error} :
    (outcome.bind TxResponse.check).map (fun _ => a) = .error e ↔ outcome = .error e ∨
      ∃ r, outcome = .ok r ∧ r.code ≠ 0 ∧ e = .contractRejected r.code.toNat r.rawLog r.gasUsed.toNat := by
  cases outcome with
  | error e' => simp [Except.bind, Except.map]
  | ok r =>
    by_cases h : r.code = 0
    · simp [Except.bind, Except.map, check, isSuccess, h]
    · simp [Except.bind, Except.map, check, isSuccess, h, eq_comm (a := e)]

namespace Session
variable {u : Setup} {s s' : Session} {e : Event} {o : Observation}

/-- What an operation shows if it ends in an error or gives a request up. The answer that refuses a key, which is an
error for whoever asked with it, is not counted. -/
inductive Fails : Event → Observation → Prop where
  | poll {id e} : Fails (.poll id) (.ended (.error e))
  | drop {id} : Fails (.drop id) (.wasThere true)
  | importKey {slot key e} : Fails (.importKey slot key) (.imported (.error e))
  | ask {slot e} : Fails (.ask slot) (.asked (.error e))
  | answer {n raw e} (h : ¬ Refuses raw) : Fails (.answer n raw) (.balance (.error e))
  | get {slot e} : Fails (.get slot) (.key (.error e))

/-- The causes of failure, with the error that each of them shows. -/
inductive Failure (u : Setup) (s : Session) : Event → Observation → Prop where
  | unregistered {id slot} (ht : s.tasks[id]? = some ⟨slot, .fresh⟩) (hr : u.registry.find? slot.token = none) :
      Failure u s (.poll id) (.ended (.error (.tokenNotRegistered slot.token)))
  | rejected {id slot n epoch key r} (ht : s.tasks[id]? = some ⟨slot, .leading n epoch key⟩)
      (ho : s.outcomeOf? n = some (.ok r)) (hc : r.code ≠ 0) :
      Failure u s (.poll id) (.ended (.error (.contractRejected r.code.toNat r.rawLog r.gasUsed.toNat)))
  | broadcast {id slot n epoch key e} (ht : s.tasks[id]? = some ⟨slot, .leading n epoch key⟩)
      (ho : s.outcomeOf? n = some (.error e)) : Failure u s (.poll id) (.ended (.error e))
  | shared {id slot leader e} (ht : s.tasks[id]? = some ⟨slot, .waiting leader⟩)
      (hl : s.statusOf? leader = some (.finished (.error e))) : Failure u s (.poll id) (.ended (.error e))
  | abandoned {id slot leader} (ht : s.tasks[id]? = some ⟨slot, .waiting leader⟩)
      (hl : s.statusOf? leader = some .dropped) :
      Failure u s (.poll id) (.ended (.error (.requestAbandoned slot.token)))
  | dropped {id t} (ht : s.tasks[id]? = some t) (hl : t.status.isLive) : Failure u s (.drop id) (.wasThere true)
  | importUnregistered {slot key} (hr : u.registry.find? slot.token = none) :
      Failure u s (.importKey slot key) (.imported (.error (.tokenNotRegistered slot.token)))
  | importMalformed {slot key token} (hr : u.registry.get slot.token = .ok token) (hk : ¬ ViewingKey.isValid key) :
      Failure u s (.importKey slot key) (.imported (.error (.schemaViolation .malformedViewingKey)))
  | askUnregistered {slot} (hr : u.registry.find? slot.token = none) :
      Failure u s (.ask slot) (.asked (.error (.tokenNotRegistered slot.token)))
  | askKeyless {slot token} (hr : u.registry.get slot.token = .ok token) (hk : s.keys.find? slot = none) :
      Failure u s (.ask slot) (.asked (.error (.keyNotFound slot.token slot.account)))
  | askBlank {slot token key} (hr : u.registry.get slot.token = .ok token) (hk : s.keys.find? slot = some key)
      (hb : (Text.trim slot.account).isEmpty) :
      Failure u s (.ask slot) (.asked (.error (.schemaViolation .balanceWithoutAddress)))
  | unanswered {n q e} (hq : s.queries[n]? = some q) (ha : q.answered = false) :
      Failure u s (.answer n (.error e)) (.balance (.error e))
  | undecodable {n q json} (hq : s.queries[n]? = some q) (ha : q.answered = false)
      (hj : QueryAnswer.ofAnswer? json = none) :
      Failure u s (.answer n (.ok json)) (.balance (.error (.schemaViolation (.unexpectedAnswer q.msg.kind))))
  | unreadable {n q json amount e} (hq : s.queries[n]? = some q) (ha : q.answered = false)
      (hj : QueryAnswer.ofAnswer? json = some (.balance amount)) (he : Amount.Unreadable amount q.decimals e) :
      Failure u s (.answer n (.ok json)) (.balance (.error e))
  | keyless {slot} (hk : s.keys.find? slot = none) :
      Failure u s (.get slot) (.key (.error (.keyNotFound slot.token slot.account)))

private theorem Failure.fails (h : Failure u s e o) : Fails e o := by
  cases h with
  | unregistered _ _ | rejected _ _ _ | broadcast _ _ | shared _ _ | abandoned _ _ => exact .poll
  | dropped _ _ => exact .drop
  | importUnregistered _ | importMalformed _ _ => exact .importKey
  | askUnregistered _ | askKeyless _ _ | askBlank _ _ _ => exact .ask
  | keyless _ => exact .get
  | unanswered _ _ =>
    refine .answer ?_
    rintro ⟨_, _, hr, _⟩
    cases hr
  | undecodable _ _ hj | unreadable _ _ hj _ =>
    refine .answer ?_
    rintro ⟨_, _, hr, hm⟩
    cases hr
    cases hj.symm.trans hm

section
variable {slot : KeySlot} {key : String} {e : Error}

private theorem get_eq_error_iff :
    s.get slot = .error e ↔ s.keys.find? slot = none ∧ e = .keyNotFound slot.token slot.account := by
  unfold get
  cases s.keys.find? slot <;> simp [eq_comm]

private theorem get_eq_ok_iff : s.get slot = .ok key ↔ s.keys.find? slot = some key := by
  unfold get
  cases s.keys.find? slot <;> simp

private theorem importKey_eq_error_iff : (importKey u s slot key).2 = .error e ↔
    (u.registry.find? slot.token = none ∧ e = .tokenNotRegistered slot.token) ∨
      ∃ token, u.registry.get slot.token = .ok token ∧ ¬ ViewingKey.isValid key ∧
        e = .schemaViolation .malformedViewingKey := by
  rw [← TokenRegistry.get_eq_error_iff]
  unfold importKey
  cases u.registry.get slot.token with
  | error _ => simp
  | ok token => by_cases hk : ViewingKey.isValid key <;> simp [hk, eq_comm]

private theorem ofBalance_eq_error_iff {address : String} (hk : key.isEmpty = false) :
    QueryMsg.ofBalance address key = .error e ↔
      (Text.trim address).isEmpty ∧ e = .schemaViolation .balanceWithoutAddress := by
  unfold QueryMsg.ofBalance
  by_cases ha : (Text.trim address).isEmpty <;> simp [ha, hk, eq_comm]

private theorem balanceQuery_eq_error_iff (hk : ∀ key, s.keys.find? slot = some key → key.isEmpty = false) :
    balanceQuery u s slot = .error e ↔
      (u.registry.find? slot.token = none ∧ e = .tokenNotRegistered slot.token) ∨
        ∃ token, u.registry.get slot.token = .ok token ∧
          ((s.keys.find? slot = none ∧ e = .keyNotFound slot.token slot.account) ∨
            ∃ key, s.keys.find? slot = some key ∧ (Text.trim slot.account).isEmpty ∧
              e = .schemaViolation .balanceWithoutAddress) := by
  simp only [balanceQuery, Error.bind_eq_error_iff, TokenRegistry.get_eq_error_iff, get_eq_error_iff, get_eq_ok_iff]
  refine or_congr_right (exists_congr fun token => and_congr_right fun _ => or_congr_right (exists_congr fun key => ?_))
  refine and_congr_right fun hf => ?_
  simp [ofBalance_eq_error_iff (hk key hf), pure, Except.pure]

end

theorem isEmpty_of_cached {es : List Event} {slot : KeySlot} {key : String}
    (h : (after u es).keys.find? slot = some key) : key.isEmpty = false := by
  have hv : key.length = 64 := by
    have hvalid := (lastWrite_of_cached h).isValid
    simp only [ViewingKey.isValid, Bool.and_eq_true, beq_iff_eq] at hvalid
    exact hvalid.1
  cases hk : key.isEmpty with
  | false => rfl
  | true =>
    rw [String.isEmpty_iff] at hk
    simp [hk] at hv

variable (hkeys : ∀ slot key, s.keys.find? slot = some key → key.isEmpty = false)
include hkeys

theorem Failure.observed (h : Failure u s e o) : (step u s e).2 = o := by
  cases h with
  | unregistered ht hr =>
    exact congrArg Prod.snd (Transition.resolve ht (.unregistered (TokenRegistry.get_eq_error_iff.2 ⟨hr, rfl⟩))).step_eq
  | @rejected id slot n epoch key r ht ho hc =>
    have hs := congrArg Prod.snd (Transition.close (u := u) ht ho).step_eq
    rw [TxResponse.check_eq_error_iff.2 (.inr ⟨r, rfl, hc, rfl⟩)] at hs
    exact hs
  | broadcast ht ho => exact congrArg Prod.snd (Transition.close ht ho).step_eq
  | shared ht hl => exact congrArg Prod.snd (Transition.resolve ht (.shared hl)).step_eq
  | abandoned ht hl => exact congrArg Prod.snd (Transition.resolve ht (.abandoned hl)).step_eq
  | @dropped id t ht hl =>
    obtain ⟨slot, status⟩ := t
    cases hn : status.isLeading with
    | false => exact congrArg Prod.snd (Transition.abandon (u := u) ht hl hn).step_eq
    | true =>
      cases status with
      | leading n epoch key => exact congrArg Prod.snd (Transition.release (u := u) ht).step_eq
      | _ => cases hn
  | importUnregistered hr => exact congrArg Observation.imported (importKey_eq_error_iff.2 (.inl ⟨hr, rfl⟩))
  | importMalformed hr hk =>
    exact congrArg Observation.imported (importKey_eq_error_iff.2 (.inr ⟨_, hr, hk, rfl⟩))
  | @askUnregistered slot hr =>
    have hq := (balanceQuery_eq_error_iff (u := u) (hkeys slot)).2 (.inl ⟨hr, rfl⟩)
    exact congrArg Prod.snd (Idle.askRefused hq).step_eq
  | @askKeyless slot token hr hk =>
    have hq := (balanceQuery_eq_error_iff (hkeys slot)).2 (.inr ⟨token, hr, .inl ⟨hk, rfl⟩⟩)
    exact congrArg Prod.snd (Idle.askRefused hq).step_eq
  | @askBlank slot token key hr hk hb =>
    have hq := (balanceQuery_eq_error_iff (hkeys slot)).2 (.inr ⟨token, hr, .inr ⟨key, hk, hb, rfl⟩⟩)
    exact congrArg Prod.snd (Idle.askRefused hq).step_eq
  | unanswered hq ha => exact congrArg Prod.snd (Transition.answer (u := u) hq ha).step_eq
  | undecodable hq ha hj => simp [step, Session.answer, hq, ha, takeAnswer, hj]
  | unreadable hq ha hj he => simp [step, Session.answer, hq, ha, takeAnswer, hj, Amount.toHuman_eq_error_iff.2 he]
  | keyless hk => exact congrArg Observation.key (get_eq_error_iff.2 ⟨hk, rfl⟩)

private theorem Idle.failure (h : Idle u s e o) (hf : Fails e o) : Failure u s e o := by
  cases h with
  | unknown _ | ended _ _ | unsettled _ _ | waiting _ _ | notLive _ | unasked _ | state _ => cases hf
  | importRefused hi =>
    obtain ⟨hr, rfl⟩ | ⟨_, hr, hk, rfl⟩ := importKey_eq_error_iff.1 hi
    · exact .importUnregistered hr
    · exact .importMalformed hr hk
  | @askRefused slot _ hq =>
    obtain ⟨hr, rfl⟩ | ⟨_, hr, ⟨hk, rfl⟩ | ⟨_, hk, hb, rfl⟩⟩ := (balanceQuery_eq_error_iff (hkeys slot)).1 hq
    · exact .askUnregistered hr
    · exact .askKeyless hr hk
    · exact .askBlank hr hk hb
  | get slot =>
    generalize hg : s.get slot = result at hf
    cases hf
    obtain ⟨hk, rfl⟩ := get_eq_error_iff.1 hg
    exact .keyless hk

omit hkeys in
private theorem failure_of_answer {n : Nat} {q : BalanceQuery} {raw : Except Error Json} (hq : s.queries[n]? = some q)
    (ha : q.answered = false) {e : Error} (he : (takeAnswer s q raw).2 = .error e) (hr : ¬ Refuses raw) :
    Failure u s (.answer n raw) (.balance (.error e)) := by
  cases raw with
  | error e' =>
    cases he
    exact .unanswered hq ha
  | ok json =>
    simp only [takeAnswer] at he
    cases hj : QueryAnswer.ofAnswer? json with
    | none =>
      simp only [hj] at he
      cases he
      exact .undecodable hq ha hj
    | some answer =>
      cases answer with
      | balance amount =>
        simp only [hj] at he
        exact .unreadable hq ha hj (Amount.toHuman_eq_error_iff.1 he)
      | viewingKeyError msg => exact absurd ⟨json, msg, rfl, hj⟩ hr

theorem Transition.failure (h : Transition u s e s' o) (hf : Fails e o) : Failure u s e o := by
  cases h with
  | idle hi => exact hi.failure hkeys hf
  | start _ | join _ _ _ _ | lead _ _ _ _ | settle _ _ | keep _ _ | disconnect _ | ask _ => cases hf
  | resolve ht hr =>
    cases hr with
    | unregistered hr =>
      obtain ⟨hn, rfl⟩ := TokenRegistry.get_eq_error_iff.1 hr
      exact .unregistered ht hn
    | cached _ _ => cases hf
    | shared hl =>
      cases hf
      exact .shared ht hl
    | abandoned hl => exact .abandoned ht hl
  | @close id slot n epoch key outcome ht ho =>
    generalize hr : (outcome.bind TxResponse.check).map (fun _ => key) = result at hf
    cases hf
    obtain rfl | ⟨r, rfl, hc, rfl⟩ := TxResponse.check_eq_error_iff.1 hr
    · exact .broadcast ht ho
    · exact .rejected ht ho hc
  | release ht => exact .dropped ht rfl
  | abandon ht hl _ => exact .dropped ht hl
  | @answer n q raw hq ha =>
    generalize hr : (takeAnswer s q raw).2 = result at hf
    cases hf with
    | answer hn => exact failure_of_answer hq ha hr hn

omit hkeys

/-- A failure writes and takes no key, starts no epoch and sends nothing. -/
theorem Transition.kept (h : Transition u s e s' o) (hf : Fails e o) :
    s'.keys = s.keys ∧ s'.epochs = s.epochs ∧ s'.submissions = s.submissions := by
  cases h with
  | idle _ | resolve _ _ | release _ | abandon _ _ _ => exact ⟨rfl, rfl, rfl⟩
  | start _ | join _ _ _ _ | lead _ _ _ _ | settle _ _ | keep _ _ | disconnect _ | ask _ => cases hf
  | @close id slot n epoch key outcome ht ho =>
    refine ⟨?_, rfl, rfl⟩
    rcases keys_finishLeader s id slot epoch key outcome with hk | ⟨hr, _⟩
    · exact hk
    · have hok := (TxResponse.isOk_check_iff outcome key).2 hr
      generalize (outcome.bind TxResponse.check).map (fun _ => key) = result at hf hok
      cases hf
      cases hok
  | @answer n q raw hq ha =>
    have hs : (takeAnswer s q raw).1 = s := by
      generalize (takeAnswer s q raw).2 = result at hf
      cases hf with
      | answer hr => exact takeAnswer_of_not_refuses s q hr
    rw [hs]
    exact ⟨rfl, rfl, rfl⟩

def Event.request? : Event → Option Nat
  | .poll id | .drop id => some id
  | _ => none

private theorem Transition.freed_of_fails {id : Nat} {slot : KeySlot} (h : Transition u s e s' o) (hf : Fails e o)
    (he : e.request? = some id) (hl : s.Leads id slot) : s'.inFlight = s.inFlight.erase slot := by
  cases h with
  | idle hi =>
    cases hi with
    | importRefused _ | askRefused _ | get _ => cases he
    | _ => cases hf
  | resolve ht hr =>
    cases he
    exact absurd hl (not_leads_of_status ht (by cases hr <;> rfl))
  | abandon ht _ hn =>
    cases he
    exact absurd hl (not_leads_of_status ht hn)
  | close ht _ =>
    cases he
    rw [hl.slot_eq ⟨_, _, _, ht⟩]
    rfl
  | release ht =>
    cases he
    rw [hl.slot_eq ⟨_, _, _, ht⟩]
  | start _ | join _ _ _ _ | lead _ _ _ _ | settle _ _ | keep _ _ | disconnect _ | ask _ => cases hf
  | answer _ _ => cases he

private theorem Transition.inFlight_of_fails (h : Transition u s e s' o) (hf : Fails e o)
    (hl : ∀ id slot, e.request? = some id → ¬ s.Leads id slot) : s'.inFlight = s.inFlight := by
  cases h with
  | idle _ | resolve _ _ | abandon _ _ _ => rfl
  | close ht _ | release ht => exact absurd ⟨_, _, _, ht⟩ (hl _ _ rfl)
  | start _ | join _ _ _ _ | lead _ _ _ _ | settle _ _ | keep _ _ | disconnect _ | ask _ => cases hf
  | answer _ _ => simp

/-- In every state that a run can reach, an operation ends in an error or gives a request up exactly for one of the
causes of failure, and shows the error of that cause. All keys and the epochs of all accounts are then as they were,
nothing was sent, and the slots in flight are as they were but for the one led by the request that ended, if it led
any. -/
theorem failure_leaves_session (u : Setup) (es : List Event) (e : Event) :
    let s := after u es
    let s' := (step u s e).1
    (∀ o, ((step u s e).2 = o ∧ Fails e o) ↔ Failure u s e o) ∧
      (Fails e (step u s e).2 → s'.keys = s.keys ∧ (∀ account, s'.epoch account = s.epoch account) ∧
        s'.submissions = s.submissions ∧
        (∀ id slot, e.request? = some id → s.Leads id slot →
          s.inFlight.find? slot = some id ∧ s'.inFlight = s.inFlight.erase slot) ∧
        ((∀ id slot, e.request? = some id → ¬ s.Leads id slot) → s'.inFlight = s.inFlight)) := by
  intro s s'
  have ht : Transition u s e s' (step u s e).2 := step_transition u s e
  have hkeys : ∀ slot key, s.keys.find? slot = some key → key.isEmpty = false := fun _ _ h => isEmpty_of_cached h
  refine ⟨?_, ?_⟩
  · intro o
    constructor
    · rintro ⟨rfl, hf⟩
      exact ht.failure hkeys hf
    · exact fun h => ⟨h.observed hkeys, h.fails⟩
  · intro hf
    obtain ⟨hk, hepochs, hsent⟩ := ht.kept hf
    refine ⟨hk, ?_, hsent, ?_, ht.inFlight_of_fails hf⟩
    · intro account
      rw [epoch, epoch, hepochs]
    · intro id slot he hl
      exact ⟨(singleFlight_after u es slot id).2 hl, ht.freed_of_fails hf he hl⟩

/-- A rejected leader leaves the key of one slot and the leader of another as they are. -/
example :
    let u := Setup.single ⟨"token", "hash", "TKN", 6⟩
    let es := [.importKey ⟨"token", "alice"⟩ (u.key 7), .start ⟨"token", "bob"⟩, .start ⟨"token", "carol"⟩, .poll 0,
      .poll 1, .settle 0 (.ok ⟨5, "out of gas", 40000, none⟩)]
    let s := after u es
    let s' := (step u s (.poll 0)).1
    (step u s (.poll 0)).2 = .ended (.error (.contractRejected 5 "out of gas" 40000)) ∧
      s'.keys = [(⟨"token", "alice"⟩, u.key 7)] ∧ s'.epochs = s.epochs ∧
      s.inFlight = [(⟨"token", "carol"⟩, 1), (⟨"token", "bob"⟩, 0)] ∧ s'.inFlight = [(⟨"token", "carol"⟩, 1)] := by
  decide +kernel

end Session

end LiquidityBook
