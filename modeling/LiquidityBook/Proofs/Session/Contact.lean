import LiquidityBook.Proofs.Amount.RoundTrip
import LiquidityBook.Proofs.Contract.Locality
import LiquidityBook.Proofs.Session.Eviction
import LiquidityBook.Proofs.Session.Ledger
import LiquidityBook.Proofs.Session.Waiting

/-! What the errors of a session tell about the network. Those of requests are local exactly where no transaction was
submitted. Those of balances are local also after an answer that refuses the key or cannot be read. -/
namespace LiquidityBook.Session
variable {u : Setup} {s s' : Session} {e : Event} {o : Observation} {id leader : Nat} {slot : KeySlot}
  {es : List Event} {result : Except Error String} {querier : Querier}

/-- A poll of the request handed a transaction to the broadcaster. -/
def Submits (u : Setup) (es : List Event) (id : Nat) : Prop :=
  ∃ p q, es = p ++ .poll id :: q ∧ (after u (p ++ [.poll id])).requests ≠ (after u p).requests

/-- A transaction was submitted for the request, by itself or by the one that it joined. -/
def Reaches (u : Setup) (es : List Event) (id : Nat) : Prop :=
  Submits u es id ∨ ∃ slot leader, Joined u es id slot leader ∧ Submits u es leader

/-- A transaction is submitted by a poll that finds a key to issue. -/
theorem submits_iff :
    Submits u es id ↔ ∃ p q slot token, es = p ++ .poll id :: q ∧ Opens u (after u p) ⟨id, slot, token⟩ := by
  constructor
  · rintro ⟨p, q, rfl, hr⟩
    rw [after_concat] at hr
    rcases (step_transition u (after u p) (.poll id)).requests_cases (singleFlight_after u p) with
      ⟨a, ha, hopen, _⟩ | ⟨_, hsame⟩
    · cases ha
      exact ⟨p, q, a.slot, a.token, rfl, hopen⟩
    · exact absurd hsame hr
  · rintro ⟨p, q, slot, token, rfl, hopen⟩
    refine ⟨p, q, rfl, ?_⟩
    rw [after_concat]
    rcases (step_transition u (after u p) (.poll id)).requests_cases (singleFlight_after u p) with
      ⟨a, _, _, hr⟩ | ⟨hn, _⟩
    · simp [hr]
    · exact absurd hopen (hn _ rfl)

private theorem Submits.append (h : Submits u es id) (rest : List Event) : Submits u (es ++ rest) id := by
  obtain ⟨p, q, rfl, hr⟩ := h
  exact ⟨p, q ++ rest, by simp, hr⟩

private theorem Joined.append (h : Joined u es id slot leader) (rest : List Event) :
    Joined u (es ++ rest) id slot leader := by
  obtain ⟨p, q, rfl, hj⟩ := h
  exact ⟨p, q ++ rest, by simp, hj⟩

private theorem Leads.submits (h : (after u es).Leads id slot) : Submits u es id := by
  obtain ⟨n, epoch, key, ht⟩ := h
  rcases leading_run ht with h | ⟨p, m, rfl, hf, hl, _⟩
  · cases h
  · have hl' : (after u (p ++ [.poll id])).tasks[id]? = some ⟨slot, .leading n epoch key⟩ := hl
    rw [after_concat] at hl'
    obtain ⟨_, _, _, token, _, _, _, hs⟩ := (step_transition u (after u p) (.poll id)).led hf hl'
    exact ⟨p, m, rfl, by simp [after_concat, requests, hs]⟩

private theorem Joined.submits (h : Joined u es id slot leader) : Submits u es leader := by
  obtain ⟨p, q, rfl, _, _, _, hl⟩ := h
  exact hl.submits.append _

private theorem first_poll_unique {p q p' q' : List Event} {slot' : KeySlot}
    (he : p ++ .poll id :: q = p' ++ .poll id :: q')
    (hf : (after u p).tasks[id]? = some ⟨slot, .fresh⟩) (hf' : (after u p').tasks[id]? = some ⟨slot', .fresh⟩) :
    p = p' := by
  have later {p m : List Event} {a b : KeySlot} (hp : (after u p).tasks[id]? = some ⟨a, .fresh⟩) :
      (after u (p ++ .poll id :: m)).tasks[id]? ≠ some ⟨b, .fresh⟩ := by
    intro hm
    obtain ⟨new, ht, hn⟩ := polled_after m hp
    cases ht.symm.trans hm
    exact hn rfl
  rcases List.append_eq_append_iff.1 he with ⟨m, rfl, hm⟩ | ⟨m, rfl, hm⟩
  · cases m with
    | nil => simp
    | cons d m =>
      cases hm
      exact absurd hf' (later hf)
  · cases m with
    | nil => simp
    | cons d m =>
      cases hm
      exact absurd hf (later hf')

private theorem not_reaches_of_unregistered {p q : List Event} {e : Error}
    (hf : (after u p).tasks[id]? = some ⟨slot, .fresh⟩)
    (hr : u.registry.get slot.token = .error e) : ¬ Reaches u (p ++ .poll id :: q) id := by
  have unregistered {p' q' : List Event} {own : KeySlot} {token : Token}
      (he : p ++ .poll id :: q = p' ++ .poll id :: q')
      (hf' : (after u p').tasks[id]? = some ⟨own, .fresh⟩) : u.registry.get own.token ≠ .ok token := by
    cases first_poll_unique he hf hf'
    cases hf.symm.trans hf'
    simp [hr]
  rintro (hs | ⟨own, leader, ⟨p', q', he, hf', ⟨token, hreg⟩, _⟩, _⟩)
  · obtain ⟨p', q', own, token, he, hopen⟩ := submits_iff.1 hs
    exact unregistered he hopen.fresh hopen.registered
  · exact unregistered he hf' hreg

private theorem Returned.localIff (h : Returned u es id result)
    (hb : ∀ n outcome, .settle n outcome ∈ es → Remote outcome) :
    LocalIff result (¬ Reaches u es id) := by
  intro e he
  obtain ⟨p, q, rfl, hs⟩ := h
  have settled {n : Nat} {outcome : Except Error TxResponse} (key : String)
      (hm : .settle n outcome ∈ p ++ .poll id :: q) : Remote ((outcome.bind TxResponse.check).map fun _ => key) :=
    (hb n outcome hm).check.map _
  have joined {slot : KeySlot} {leader : Nat} (ht : (after u p).tasks[id]? = some ⟨slot, .waiting leader⟩) :
      Joined u (p ++ .poll id :: q) id slot leader := (joined_of_waiting ht).append _
  have reaches {slot : KeySlot} {leader : Nat} (ht : (after u p).tasks[id]? = some ⟨slot, .waiting leader⟩) :
      ¬¬ Reaches u (p ++ .poll id :: q) id :=
    not_not_intro (.inr ⟨slot, leader, joined ht, (joined ht).submits⟩)
  have ht := step_transition u (after u p) (.poll id)
  rw [hs, he] at ht
  generalize (step u (after u p) (.poll id)).1 = s' at ht
  generalize ho : Observation.ended (.error e) = o at ht
  cases ht with
  | idle hi => cases hi <;> cases ho
  | join _ _ _ _ | lead _ _ _ _ => cases ho
  | resolve ht hr =>
    cases ho
    cases hr with
    | unregistered hr =>
      refine iff_of_true ?_ (not_reaches_of_unregistered ht hr)
      rw [(TokenRegistry.get_eq_error_iff.1 hr).2]
      rfl
    | shared hl =>
      have hret := finished_iff_returned.1 hl
      refine iff_of_false ?_ (reaches ht)
      rcases (joined_of_waiting ht).leader_cases with hlead | hgiven | ⟨n, outcome, key, hm, hret'⟩
      · exact absurd hret (hlead.live.1 _)
      · exact absurd hgiven hret.not_givenUp
      · have heq := (finished_iff_returned.2 hret').symm.trans hl
        have hrem := settled key (List.mem_append_left _ hm)
        rw [Status.finished.inj (Option.some.inj heq)] at hrem
        simp [hrem e rfl]
    | abandoned _ => exact iff_of_false nofun (reaches ht)
  | @close _ slot n epoch key outcome ht hout =>
    have hlead : (after u p).Leads id slot := ⟨n, epoch, key, ht⟩
    refine iff_of_false ?_ (not_not_intro (.inl (hlead.submits.append _)))
    rcases outcome_run hout with h0 | hm
    · cases h0
    · have hrem := settled key (List.mem_append_left (.poll id :: q) hm)
      rw [← Observation.ended.inj ho] at hrem
      simp [hrem e rfl]

/-- What an answer to the query is read as. -/
def BalanceQuery.read (q : BalanceQuery) (json : Json) : Except Error String :=
  match QueryAnswer.ofAnswer? json with
  | none => .error (.schemaViolation (.unexpectedAnswer q.msg.kind))
  | some (.balance amount) => Amount.toHuman amount q.decimals none
  | some (.viewingKeyError _) => .error (.keyNotFound q.slot.token q.slot.account)

private theorem takeAnswer_snd (s : Session) (q : BalanceQuery) (raw : Except Error Json) :
    (takeAnswer s q raw).2 = raw.bind q.read := by
  cases raw with
  | error e => rfl
  | ok json =>
    simp only [takeAnswer, Except.bind, BalanceQuery.read]
    cases QueryAnswer.ofAnswer? json with
    | none => rfl
    | some answer => cases answer <;> rfl

private theorem BalanceQuery.isLocal_of_read {q : BalanceQuery} {json : Json} {e : Error} (h : q.read json = .error e) :
    e.isLocal := by
  unfold BalanceQuery.read at h
  split at h
  · cases h
    rfl
  · cases Amount.toHuman_eq_error_iff.1 h <;> rfl
  · cases h
    rfl

private theorem isLocal_of_balanceQuery {e : Error} (h : balanceQuery u s slot = .error e) : e.isLocal := by
  simp only [balanceQuery, Error.bind_eq_error_iff] at h
  rcases h with h | ⟨token, _, h | ⟨key, _, h | ⟨msg, _, h⟩⟩⟩
  · rw [(TokenRegistry.get_eq_error_iff.1 h).2]
    rfl
  · unfold get at h
    split at h
    · cases h
    · cases h
      rfl
  · unfold QueryMsg.ofBalance at h
    repeat' split at h
    all_goals cases h
    all_goals rfl
  · cases h

private theorem decimals_of_balanceQuery {q : BalanceQuery} (h : balanceQuery u s slot = .ok q) :
    ∃ token, u.registry.get slot.token = .ok token ∧ q.decimals = token.decimals.toNat := by
  simp only [balanceQuery, Error.bind_eq_ok_iff] at h
  obtain ⟨token, hr, _, _, _, _, hq⟩ := h
  cases hq
  exact ⟨token, hr, rfl⟩

/-- The answer is an amount of the token that has a human form. -/
def Shows (u : Setup) (slot : KeySlot) (json : Json) : Prop :=
  ∃ token amount text, u.registry.get slot.token = .ok token ∧ QueryAnswer.ofAnswer? json = some (.balance amount) ∧
    Amount.toHuman amount token.decimals.toNat none = .ok text

private theorem shows_iff {q : BalanceQuery} {json : Json} (h : balanceQuery u s slot = .ok q) :
    Shows u slot json ↔ ∃ text, q.read json = .ok text := by
  obtain ⟨token, hr, hd⟩ := decimals_of_balanceQuery h
  unfold BalanceQuery.read
  cases hj : QueryAnswer.ofAnswer? json with
  | none => simp [Shows, hj]
  | some answer => cases answer <;> simp [Shows, hj, hr, hd]

private theorem balance_tells (h : ∀ contract msg, Remote (querier contract msg)) :
    Tells querier (Shows u slot) (balance u s slot querier).2 := by
  unfold balance
  cases hb : balanceQuery u s slot with
  | error e => exact .of_refused (isLocal_of_balanceQuery hb)
  | ok q =>
    simp only [takeAnswer_snd]
    exact .of_query (fun _ _ => BalanceQuery.isLocal_of_read) (fun _ => shows_iff hb) (h _ _)

private theorem answer_localIff {n : Nat} {q : BalanceQuery} {raw : Except Error Json} (hq : s.queries[n]? = some q)
    (ha : q.answered = false) (hr : Remote raw) :
    ∃ result, (step u s (.answer n raw)).2 = .balance result ∧ LocalIff result (∃ json, raw = .ok json) := by
  refine ⟨_, congrArg Prod.snd (Transition.answer (u := u) hq ha).step_eq, ?_⟩
  rw [takeAnswer_snd]
  cases raw with
  | error e =>
    rintro _ ⟨⟩
    simp [hr e rfl]
  | ok json => exact fun e he => iff_of_true (BalanceQuery.isLocal_of_read he) ⟨json, rfl⟩

/-- What errors tell about the network, where the broadcaster and the querier do not fail with local errors themselves.
An error of a request or of a checked submission is local exactly where nothing was submitted. An error of a balance or
of a question to the factory is local exactly where no query was left without an answer: no query was made, or the
answer is of no use. It is local exactly where no query was made only as long as every answer is of use. -/
theorem errors_tell_contact (u : Setup) (querier : Querier) (h : ∀ contract msg, Remote (querier contract msg)) :
    (∀ es : List Event, (∀ n outcome, .settle n outcome ∈ es → Remote outcome) →
      ∀ id result, Returned u es id result → LocalIff result (¬ Reaches u es id)) ∧
    (∀ broadcast request, Remote (broadcast request) →
      LocalIff (submitChecked broadcast request).1 ((submitChecked broadcast request).2 = [])) ∧
    (∀ s slot, Tells querier (Shows u slot) (balance u s slot querier).2) ∧
    (∀ factory pair, Tells querier (Factory.Informs pair) (Factory.pairInformation querier factory pair)) ∧
    (∀ factory pair, Tells querier (Factory.Informs pair) (Factory.resolvePairContract querier factory pair)) ∧
    (∀ factory binStep, Tells querier (fun json => (PresetResponse.ofAnswer? json).isSome)
      (Factory.preset querier factory binStep)) ∧
    ∀ (s : Session) n (q : BalanceQuery), s.queries[n]? = some q → q.answered = false →
      ∃ result, (step u s (.answer n (querier q.contract q.msg))).2 = .balance result ∧
        LocalIff result (∃ json, querier q.contract q.msg = .ok json) := by
  refine ⟨fun es hb id result hr => hr.localIff hb, fun _ _ => localIff_submitChecked, fun _ _ => balance_tells h, ?_⟩
  exact ⟨fun _ _ => Factory.pairInformation_tells (h _ _), fun _ _ => Factory.resolvePairContract_tells (h _ _),
    fun _ _ => Factory.preset_tells (h _), fun _ _ _ hq ha => answer_localIff hq ha (h _ _)⟩

def unreachable {α : Type} : Except Error α := .error (.transport "connection reset")

private theorem remote_unreachable {α : Type} : Remote (unreachable : Except Error α) := by
  rintro _ ⟨⟩
  rfl

/-- One request submits a key that is not delivered, another one has a token that is not registered, and the factory is
out of reach. -/
theorem errors_tell_contact_unreachable :
    let u := Setup.single ⟨"token", "hash", "TKN", 6⟩
    let es := [.start ⟨"token", "alice"⟩, .start ⟨"other", "alice"⟩, .poll 0, .poll 1, .settle 0 unreachable, .poll 0]
    let pair : Pair := ⟨⟨"x", "hx", "TOKENX", 6⟩, ⟨"y", "hy", "TOKENY", 6⟩, 100⟩
    let x := Factory.pairInformation (fun _ _ => unreachable) ⟨"factory", "hash"⟩ pair
    (Returned u es 0 unreachable ∧ Reaches u es 0) ∧
    (Returned u es 1 (.error (.tokenNotRegistered "other")) ∧ ¬ Reaches u es 1) ∧
    x.1 = unreachable ∧ x.2.length = 1 ∧ LocalIff x.1 (x.2 = []) := by
  intro u es pair x
  have hsettled : ∀ n outcome, .settle n outcome ∈ es → Remote outcome := by
    intro n outcome hm
    simp only [es, List.mem_cons, reduceCtorEq, Event.settle.injEq, List.not_mem_nil, false_or, or_false] at hm
    exact hm.2 ▸ remote_unreachable
  obtain ⟨hrun, _, _, hpair, _⟩ := errors_tell_contact u (fun _ _ => unreachable) fun _ _ => remote_unreachable
  have h0 : Returned u es 0 unreachable := finished_iff_returned.1 (by decide +kernel)
  have h1 : Returned u es 1 (.error (.tokenNotRegistered "other")) := finished_iff_returned.1 (by decide +kernel)
  have hx := hpair ⟨"factory", "hash"⟩ pair
  refine ⟨⟨h0, ?_⟩, ⟨h1, (hrun es hsettled 1 _ h1 _ rfl).1 rfl⟩, rfl, rfl, hx.unsent_iff.2 ?_⟩
  · exact not_not.1 fun hn => absurd ((hrun es hsettled 0 _ h0 _ rfl).2 hn) (by decide)
  · rintro _ _ _ ⟨⟩

/-- A factory that answers without information, and a token contract that refuses a key, make local errors after a
query. -/
theorem local_error_after_query :
    let u := Setup.single ⟨"token", "hash", "TKN", 6⟩
    let s := after u [.importKey ⟨"token", "alice"⟩ (u.key 0)]
    let pair : Pair := ⟨⟨"x", "hx", "TOKENX", 6⟩, ⟨"y", "hy", "TOKENY", 6⟩, 100⟩
    let x := Factory.pairInformation (fun _ _ => .ok (.record [("unexpected", .record [])])) ⟨"factory", "hash"⟩ pair
    let y := (balance u s ⟨"token", "alice"⟩ fun _ _ => refusal).2
    (x.1 = .error (.schemaViolation (.unexpectedAnswer "get_lb_pair_information")) ∧ x.2.length = 1 ∧
      ¬ LocalIff x.1 (x.2 = [])) ∧
    y.1 = .error (.keyNotFound "token" "alice") ∧ y.2.length = 1 ∧ ¬ LocalIff y.1 (y.2 = []) := by
  have told {α : Type} {x : Queried α} {e : Error} (he : x.1 = .error e) (hl : e.isLocal) (hn : x.2.length = 1) :
      ¬ LocalIff x.1 (x.2 = []) := by
    intro h
    rw [(h e he).1 hl] at hn
    cases hn
  intro u s pair x y
  have hx : x.1 = .error (.schemaViolation (.unexpectedAnswer "get_lb_pair_information")) := rfl
  have hy : y.1 = .error (.keyNotFound "token" "alice") := by decide +kernel
  have hn : y.2.length = 1 := by decide +kernel
  exact ⟨⟨hx, rfl, told hx rfl rfl⟩, hy, hn, told hy rfl hn⟩

end LiquidityBook.Session
