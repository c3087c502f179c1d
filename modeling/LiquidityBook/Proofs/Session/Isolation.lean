import LiquidityBook.Proofs.Session.Part

/-! Accounts do not interfere. The operations about one account do to its part of the session what they would do to a
session of its own, and all other operations leave its part as it is. -/
namespace LiquidityBook.Session
variable {u : Setup} {s s' : Session} {e : Event} {o : Observation} {id n : Nat} {slot : KeySlot} {account : String}
  {fresh : Nat → Vector UInt8 32}

/-- The account that an operation is about, unless it names a request, a submission or a query that is not there. -/
def Event.account? (s : Session) : Event → Option String
  | .start slot | .importKey slot _ | .ask slot | .get slot | .state slot => some slot.account
  | .disconnect account => some account
  | .poll id | .drop id => (s.tasks[id]?).map (·.slot.account)
  | .settle n _ => (s.submissions[n]?).map (·.request.sender)
  | .answer n _ => (s.queries[n]?).map (·.slot.account)

/-- The operation in the numbers of the account. -/
def Event.within (s : Session) (account : String) : Event → Event
  | .poll id => .poll (s.taskRank account id)
  | .drop id => .drop (s.taskRank account id)
  | .settle n outcome => .settle (s.submissionRank account n) outcome
  | .answer n raw => .answer (s.queryRank account n) raw
  | e => e

private theorem account_of_task {t : Task} (ht : s.tasks[id]? = some t)
    (he : (s.tasks[id]?).map (·.slot.account) = some account) : t.slot.account = account := by
  simpa [ht] using he

private theorem account_ne_of_task {t : Task} (ht : s.tasks[id]? = some t)
    (he : (s.tasks[id]?).map (·.slot.account) ≠ some account) : t.slot.account ≠ account := by
  simpa [ht] using he

/-- The operations of a run that are about the account, in its own numbers, with what they show. -/
def own (u : Setup) (account : String) (s : Session) : List Event → List (Event × Observation)
  | [] => []
  | e :: es =>
    let rest := own u account (step u s e).1 es
    if e.account? s = some account then (e.within s account, (step u s e).2) :: rest else rest

def Setup.withKeys (u : Setup) (fresh : Nat → Vector UInt8 32) : Setup := { u with freshKey := fresh }

/-- The account's submissions have the same fresh keys under their own numbers. -/
def SameKeys (u : Setup) (fresh : Nat → Vector UInt8 32) (s : Session) (account : String) : Prop :=
  ∀ (n : Nat) (h : n < s.requests.length), s.requests[n].sender = account →
    fresh (s.submissionRank account n) = u.freshKey n

instance : Decidable (SameKeys u fresh s account) :=
  inferInstanceAs (Decidable (∀ (n : Nat) (h : n < s.requests.length), s.requests[n].sender = account →
    fresh (s.submissionRank account n) = u.freshKey n))

private theorem SameKeys.of_grows (h : SameKeys u fresh s' account) (hg : Grows s s') : SameKeys u fresh s account := by
  intro n hn ha
  obtain ⟨hn', hr⟩ := List.getElem?_eq_some_iff.1 (List.prefix_iff_getElem?.1 hg.requests n hn)
  rw [← hg.submissionRank_eq (Nat.le_of_lt hn)]
  exact h n hn' (hr ▸ ha)

/-- There are always such keys. -/
theorem exists_sameKeys (u : Setup) (s : Session) (account : String) : ∃ fresh, SameKeys u fresh s account := by
  have hrank (n : Nat) : s.submissionRank account n = rank (·.1.sender = account) s.requests.zipIdx n := by
    have hm := rank_map (·.sender = account) Prod.fst s.requests.zipIdx n
    rwa [List.zipIdx_map_fst] at hm
  -- Numbered requests keep their numbers when those of other accounts are left out.
  refine ⟨fun m => ((s.requests.zipIdx.filter (·.1.sender = account))[m]?).elim (u.freshKey m) (u.freshKey ·.2), ?_⟩
  intro n hn ha
  have hz : s.requests.zipIdx[n]? = some (s.requests[n], n) := by simp [hn]
  have hown := getElem?_filter_rank (p := (·.1.sender = account)) hz (by simpa using ha)
  simp only [hrank, hown, Option.elim_some]

private theorem importKey_snd (u : Setup) (fresh : Nat → Vector UInt8 32) (s s' : Session) (slot : KeySlot)
    (key : String) :
    (importKey (u.withKeys fresh) s' slot key).2 = (importKey u s slot key).2 := by
  simp only [importKey, Setup.withKeys]
  split
  · rfl
  · split <;> rfl

private theorem get_part (s : Session) (slot : KeySlot) : (s.part slot.account).get slot = s.get slot := by
  rw [get, get, find?_keys_part]

private theorem state_part (s : Session) (slot : KeySlot) : (s.part slot.account).state slot = s.state slot := by
  rw [state, state, find?_keys_part, find?_inFlight_part, Option.isSome_map]

private theorem balanceQuery_part (u : Setup) (fresh : Nat → Vector UInt8 32) (s : Session) (slot : KeySlot) :
    balanceQuery (u.withKeys fresh) (s.part slot.account) slot = balanceQuery u s slot := by
  simp only [balanceQuery, get_part]
  rfl

private theorem Resolves.part {status : Status} {result : Except Error String} (h : Resolves u s slot status result)
    (hl : Linked s) (ht : s.tasks[id]? = some ⟨slot, status⟩) :
    Resolves (u.withKeys fresh) (s.part slot.account) slot (status.within s slot.account) result := by
  cases h with
  | unregistered hr => exact .unregistered hr
  | cached hr hk => exact .cached hr ((find?_keys_part s slot).trans hk)
  | shared h => exact .shared (by rw [statusOf?_part (hl.leader _ _ _ ht), h]; rfl)
  | abandoned h => exact .abandoned (by rw [statusOf?_part (hl.leader _ _ _ ht), h]; rfl)

private theorem outcomeOf?_part {request : TxRequest} (h : s.requests[n]? = some request) :
    (s.part request.sender).outcomeOf? (s.submissionRank request.sender n) = s.outcomeOf? n := by
  rw [requests, List.getElem?_map] at h
  obtain ⟨b, hb, rfl⟩ := Option.map_eq_some_iff.1 h
  rw [outcomeOf?, outcomeOf?, submissions_part hb, hb]

private theorem isLive_within (s : Session) (account : String) (status : Status) :
    (status.within s account).isLive = status.isLive := by
  cases status <;> rfl

private theorem isLeading_within (s : Session) (account : String) (status : Status) :
    (status.within s account).isLeading = status.isLeading := by
  cases status <;> rfl

private theorem Idle.part (h : Idle u s e o) (hl : Linked s) (he : e.account? s = some account) :
    Idle (u.withKeys fresh) (s.part account) (e.within s account) o := by
  cases h with
  | @unknown id h => simp [Event.account?, h] at he
  | ended ht hl =>
    cases account_of_task ht he
    exact .ended (tasks_part ht) ((isLive_within ..).trans hl)
  | unsettled ht ho =>
    cases account_of_task ht he
    obtain ⟨request, hr, ha⟩ := hl.submission _ _ _ _ _ ht
    exact .unsettled (tasks_part ht) (ha ▸ (outcomeOf?_part hr).trans ho)
  | waiting ht hw =>
    cases account_of_task ht he
    refine .waiting (tasks_part ht) ?_
    intro status hs
    rw [statusOf?_part (hl.leader _ _ _ ht)] at hs
    obtain ⟨old, ho, rfl⟩ := Option.map_eq_some_iff.1 hs
    exact (isLive_within ..).trans (hw old ho)
  | notLive h =>
    obtain ⟨⟨slot, status⟩, ht, rfl⟩ := Option.map_eq_some_iff.1 he
    refine .notLive ?_
    intro t hp
    cases (tasks_part ht).symm.trans hp
    exact (isLive_within ..).trans (h _ ht)
  | importRefused h => exact .importRefused ((importKey_snd ..).trans h)
  | askRefused h =>
    cases he
    exact .askRefused ((balanceQuery_part ..).trans h)
  | unasked h =>
    obtain ⟨q, hq, rfl⟩ := Option.map_eq_some_iff.1 he
    refine .unasked ?_
    intro q' hp
    cases (queries_part hq).symm.trans hp
    exact h q hq
  | get slot =>
    cases he
    rw [← get_part]
    exact .get slot
  | state slot =>
    cases he
    rw [← state_part]
    exact .state slot

private theorem SameKeys.key_eq (h : SameKeys u fresh s' account) (request : TxRequest)
    (hr : s'.requests = s.requests ++ [request]) (ha : request.sender = account) :
    (u.withKeys fresh).key (s.part account).submissions.length = u.key s.submissions.length := by
  have hn : s.submissions.length < s'.requests.length := by simp [hr, length_requests]
  have hnew : s'.requests[s.submissions.length] = request := by simp [hr, ← length_requests]
  have hrank : s'.submissionRank account s.submissions.length = s.submissionRank account s.submissions.length :=
    rank_of_prefix ⟨_, hr.symm⟩ (Nat.le_of_eq (length_requests s).symm)
  have hfresh := h _ hn (hnew ▸ ha)
  rw [hrank, ← length_submissions_part] at hfresh
  rw [Setup.key, Setup.key, ← hfresh]
  rfl

/-- The operations about the account do to its part what they do to the session, and show the same. -/
theorem Transition.part (h : Transition u s e s' o) (hl : Linked s) (hk : SameKeys u fresh s' account)
    (he : e.account? s = some account) :
    Transition (u.withKeys fresh) (s.part account) (e.within s account) (s'.part account) o := by
  cases h with
  | idle h => exact .idle (h.part hl he)
  | start slot =>
    cases he
    rw [part_start hl, if_pos rfl]
    exact .start slot
  | resolve ht hr =>
    cases account_of_task ht he
    rw [part_setStatus ht]
    exact .resolve (tasks_part ht) (hr.part hl ht)
  | join ht hr hn hi =>
    cases account_of_task ht he
    rw [part_setStatus ht]
    exact .join (tasks_part ht) hr ((find?_keys_part ..).trans hn) ((find?_inFlight_part ..).trans (by rw [hi]; rfl))
  | @lead id slot token ht hr hn hi =>
    cases account_of_task ht he
    have hkey : (u.withKeys fresh).key (s.part slot.account).submissions.length = u.key s.submissions.length :=
      hk.key_eq (u.issuance token slot.account s.submissions.length) (by simp [requests]) rfl
    have hp := part_occupy hl ht (s.epoch slot.account) (u.key s.submissions.length)
      (u.issuance token slot.account s.submissions.length) rfl
    have hlead := Transition.lead (u := u.withKeys fresh) (tasks_part ht) hr ((find?_keys_part ..).trans hn)
      ((find?_inFlight_part ..).trans (by rw [hi]; rfl))
    -- Its number among the account's submissions goes into the transaction only by way of the key.
    rw [epoch_part, Setup.issuance, hkey] at hlead
    exact hp ▸ hlead
  | close ht ho =>
    cases account_of_task ht he
    obtain ⟨request, hr, ha⟩ := hl.submission _ _ _ _ _ ht
    rw [part_finishLeader ht]
    exact .close (tasks_part ht) (ha ▸ (outcomeOf?_part hr).trans ho)
  | release ht =>
    cases account_of_task ht he
    rw [part_release ht]
    exact .release (tasks_part ht)
  | abandon ht hv hn =>
    cases account_of_task ht he
    rw [part_setStatus ht]
    exact .abandon (tasks_part ht) ((isLive_within ..).trans hv) ((isLeading_within ..).trans hn)
  | settle n outcome =>
    obtain ⟨b, hb, rfl⟩ := Option.map_eq_some_iff.1 he
    have hin : n < s.submissions.length := (List.getElem?_eq_some_iff.1 hb).1
    have hout := (List.getElem?_eq_some_iff.1 (submissions_part hb)).1
    have hs : (s.settle n outcome).2 =
        ((s.part b.request.sender).settle (s.submissionRank b.request.sender n) outcome).2 := by
      simp [Session.settle, hin, hout]
    rw [part_settle hb, hs]
    exact .settle _ outcome
  | @keep slot key token hr hv =>
    cases he
    rw [part_with_keys s (s.keys.insert slot key), keys_insert_part]
    exact .keep hr hv
  | disconnect account =>
    cases he
    rw [part_disconnect, ← disconnect_part_count]
    exact .disconnect account
  | @ask slot q h =>
    cases he
    rw [part_ask, if_pos (by rw [(balanceQuery_eq_ok h).1])]
    exact .ask ((balanceQuery_part ..).trans h)
  | @answer n q raw hq ha =>
    obtain ⟨q', hq', rfl⟩ := Option.map_eq_some_iff.1 he
    cases hq.symm.trans hq'
    obtain ⟨hs, ho⟩ := part_takeAnswer s q raw
    rw [part_answered (by rwa [takeAnswer_queries]), queryRank, takeAnswer_queries, hs, ho]
    exact .answer (queries_part hq) ha

/-- The operations about other accounts leave the account's part as it is. -/
theorem Transition.part_eq (h : Transition u s e s' o) (hl : Linked s) (he : e.account? s ≠ some account) :
    s'.part account = s.part account := by
  cases h with
  | idle _ => rfl
  | start slot => rw [part_start hl, if_neg (by simpa [Event.account?] using he)]
  | resolve ht _ | join ht _ _ _ | abandon ht _ _ => exact part_setStatus_of_ne ht (account_ne_of_task ht he) _
  | lead ht _ _ _ => exact part_occupy_of_ne hl ht _ _ _ rfl (account_ne_of_task ht he)
  | close ht _ => exact part_finishLeader_of_ne ht (account_ne_of_task ht he) _ _ _
  | release ht => exact part_release_of_ne ht (account_ne_of_task ht he) _
  | settle n outcome =>
    refine part_settle_of_ne ?_ outcome
    rintro b hb rfl
    exact he (by simp [Event.account?, hb])
  | @keep slot key _ _ _ =>
    have ha : slot.account ≠ account := by simpa [Event.account?] using he
    rw [part_with_keys s (s.keys.insert slot key), keys_insert_part_of_ne s ha]
  | disconnect other => exact part_disconnect_of_ne s (by simpa [Event.account?] using he)
  | @ask slot q h =>
    have ha : slot.account ≠ account := by simpa [Event.account?] using he
    rw [part_ask, if_neg (by rwa [(balanceQuery_eq_ok h).1])]
  | @answer n q raw hq _ =>
    have ha : q.slot.account ≠ account := by simpa [Event.account?, hq] using he
    rw [part_answered_of_ne (by rwa [takeAnswer_queries]) ha]
    rcases takeAnswer_eq s q raw with hs | hs
    · rw [hs]
    · rw [hs, part_with_keys s (s.keys.erase q.slot), Table.restrict_erase_of_not _ (by simpa using ha)]
      rfl

/-- The part of an account goes through the account's own operations, and shows what they show. -/
theorem run_part (hf : SingleFlight s) (hl : Linked s) (es : List Event)
    (hk : SameKeys u fresh (run u s es).1 account) :
    run (u.withKeys fresh) (s.part account) ((own u account s es).map Prod.fst) =
      ((run u s es).1.part account, (own u account s es).map Prod.snd) := by
  induction es generalizing s with
  | nil => rfl
  | cons e es ih =>
    have ht := step_transition u s e
    have hf' := ht.singleFlight hf
    have hrest := ih hf' (ht.linked hf hl) hk
    -- An operation about the account is a step of both sessions, any other one of the whole session alone.
    by_cases he : e.account? s = some account
    · have hs := (ht.part hl (hk.of_grows (grows_run u es hf')) he).step_eq
      simp only [own, if_pos he, List.map_cons, run, hs, hrest]
    · rw [ht.part_eq hl he] at hrest
      simp only [own, if_neg he]
      exact hrest

private theorem requests_part (s : Session) (account : String) :
    (s.part account).requests = s.requests.filter (·.sender = account) := by
  simp only [requests, part, List.filter_map]
  rfl

/-- Accounts do not interfere. In a session where nothing happens but the operations of one account, they show what
they show among those of the others, and the broadcaster is handed the same transactions from the account, in the same
order. The account's submissions only have to have the same fresh keys in both sessions, and that can always be so. -/
theorem accounts_do_not_interfere (u : Setup) (es : List Event) (account : String) :
    let steps := own u account empty es
    (∃ fresh, SameKeys u fresh (after u es) account) ∧
    ∀ fresh, SameKeys u fresh (after u es) account →
      let alone := run (u.withKeys fresh) empty (steps.map Prod.fst)
      alone.2 = steps.map Prod.snd ∧
      alone.1 = (after u es).part account ∧
      alone.1.requests = (after u es).requests.filter (·.sender = account) := by
  intro steps
  refine ⟨exists_sameKeys u (after u es) account, ?_⟩
  intro fresh hk alone
  have hrun : alone = ((after u es).part account, steps.map Prod.snd) :=
    run_part (singleFlight_after u []) linked_empty es hk
  rw [hrun]
  exact ⟨rfl, rfl, requests_part (after u es) account⟩

/-- Two accounts issue keys for the same token, and one of them is disconnected while both wait. -/
def interleaved (a b : KeySlot) : List Event :=
  [.start a, .start b, .poll 0, .poll 1, .disconnect a.account, .settle 1 accepted, .poll 1, .get b,
    .disconnect b.account]

/-- The second account's request has the number 1 among all requests and 0 among its own. -/
theorem accounts_do_not_interfere_interleaved :
    let u := Setup.single ⟨"token", "hash", "TKN", 6⟩
    let es := interleaved ⟨"token", "alice"⟩ ⟨"token", "bob"⟩
    SameKeys u (fun n => u.freshKey (n + 1)) (after u es) "bob" ∧
      (run (u.withKeys fun n => u.freshKey (n + 1)) empty ((own u "bob" empty es).map Prod.fst)).2 =
        [.nothing, .nothing, .wasThere true, .ended (.ok (u.key 1)), .key (.ok (u.key 1)), .forgotten 1] := by
  intro u es
  have hk : SameKeys u (fun n => u.freshKey (n + 1)) (after u es) "bob" := by decide +kernel
  have hseen : (own u "bob" empty es).map Prod.snd =
      [.nothing, .nothing, .wasThere true, .ended (.ok (u.key 1)), .key (.ok (u.key 1)), .forgotten 1] := by
    decide +kernel
  have halone := (accounts_do_not_interfere u es "bob").2 (fun n => u.freshKey (n + 1)) hk
  exact ⟨hk, halone.1.trans hseen⟩

end LiquidityBook.Session
