import LiquidityBook.Proofs.Session.Growth

/-! What a session holds for one account, as a session of its own. Requests, submissions and queries have other
numbers there: those they have among the account's own. -/
namespace LiquidityBook.Session
variable {s s' : Session} {id n : Nat} {slot : KeySlot} {account : String}

def taskRank (s : Session) (account : String) (id : Nat) : Nat := rank (·.account = account) s.slots id

def submissionRank (s : Session) (account : String) (n : Nat) : Nat := rank (·.sender = account) s.requests n

def queryRank (s : Session) (account : String) (n : Nat) : Nat := rank (·.slot.account = account) s.queries n

/-- How far a request of the account has come, in the numbers of the account. -/
def Status.within (s : Session) (account : String) : Status → Status
  | .leading n epoch key => .leading (s.submissionRank account n) epoch key
  | .waiting leader => .waiting (s.taskRank account leader)
  | status => status

def Task.within (s : Session) (account : String) (t : Task) : Task := ⟨t.slot, t.status.within s account⟩

/-- All that a session holds for the account. -/
def part (s : Session) (account : String) : Session where
  keys := s.keys.restrict (·.account = account)
  inFlight := (s.inFlight.restrict (·.account = account)).mapValues (s.taskRank account)
  epochs := s.epochs.restrict (· = account)
  tasks := (s.tasks.filter (·.slot.account = account)).map (Task.within s account)
  submissions := s.submissions.filter (·.request.sender = account)
  queries := s.queries.filter (·.slot.account = account)

private theorem Grows.taskRank_eq (h : Grows s s') (hi : s.slots[id]? = some slot) (account : String) :
    s'.taskRank account id = s.taskRank account id :=
  rank_of_prefix h.slots (Nat.le_of_lt (List.getElem?_eq_some_iff.1 hi).1)

theorem Grows.submissionRank_eq (h : Grows s s') (hn : n ≤ s.requests.length) (account : String) :
    s'.submissionRank account n = s.submissionRank account n :=
  rank_of_prefix h.requests hn

private theorem Grows.within_eq (h : Grows s s') (hl : Linked s) {t : Task} (ht : t ∈ s.tasks) (account : String) :
    t.status.within s' account = t.status.within s account := by
  obtain ⟨slot, status⟩ := t
  obtain ⟨id, hid⟩ := List.mem_iff_getElem?.1 ht
  cases status with
  | leading n epoch key =>
    obtain ⟨_, hr, _⟩ := hl.submission id slot n epoch key hid
    simp only [Status.within, h.submissionRank_eq (Nat.le_of_lt (List.getElem?_eq_some_iff.1 hr).1)]
  | waiting leader => simp only [Status.within, h.taskRank_eq (hl.leader id slot leader hid)]
  | _ => rfl

private theorem Grows.inFlight_eq (h : Grows s s') (hl : Linked s) (account : String) :
    (s.inFlight.restrict (·.account = account)).mapValues (s'.taskRank account) = (s.part account).inFlight :=
  Table.mapValues_congr fun e he => h.taskRank_eq (hl.entry e (List.mem_of_mem_filter he)) account

private theorem Grows.tasks_eq (h : Grows s s') (hl : Linked s) (account : String) :
    (s.tasks.filter (·.slot.account = account)).map (Task.within s' account) = (s.part account).tasks := by
  apply List.map_congr_left
  intro t ht
  rw [Task.within, Task.within, h.within_eq hl (List.mem_of_mem_filter ht)]

theorem find?_keys_part (s : Session) (slot : KeySlot) :
    (s.part slot.account).keys.find? slot = s.keys.find? slot :=
  Table.find?_restrict s.keys (p := fun own => decide (own.account = slot.account)) (by simp)

theorem find?_inFlight_part (s : Session) (slot : KeySlot) :
    (s.part slot.account).inFlight.find? slot = (s.inFlight.find? slot).map (s.taskRank slot.account) := by
  rw [part, Table.find?_mapValues, Table.find?_restrict _ (by simp)]

theorem epoch_part (s : Session) (account : String) : (s.part account).epoch account = s.epoch account := by
  rw [epoch, epoch, part, Table.find?_restrict _ (by simp)]

theorem tasks_part {status : Status} (h : s.tasks[id]? = some ⟨slot, status⟩) :
    (s.part slot.account).tasks[s.taskRank slot.account id]? = some ⟨slot, status.within s slot.account⟩ := by
  have hr : s.taskRank slot.account id = rank (·.slot.account = slot.account) s.tasks id := rank_map ..
  rw [hr, part, List.getElem?_map, getElem?_filter_rank h (by simp)]
  rfl

theorem statusOf?_part (h : s.slots[id]? = some slot) :
    (s.part slot.account).statusOf? (s.taskRank slot.account id) =
      (s.statusOf? id).map (Status.within s slot.account) := by
  rw [slots, List.getElem?_map] at h
  obtain ⟨t, ht, rfl⟩ := Option.map_eq_some_iff.1 h
  simp [statusOf?, tasks_part ht, ht]

theorem submissions_part {b : Submission} (h : s.submissions[n]? = some b) :
    (s.part b.request.sender).submissions[s.submissionRank b.request.sender n]? = some b := by
  have hr : s.submissionRank b.request.sender n = rank (·.request.sender = b.request.sender) s.submissions n :=
    rank_map ..
  rw [hr]
  exact getElem?_filter_rank h (by simp)

theorem queries_part {q : BalanceQuery} (h : s.queries[n]? = some q) :
    (s.part q.slot.account).queries[s.queryRank q.slot.account n]? = some q :=
  getElem?_filter_rank h (by simp)

theorem length_submissions_part (s : Session) (account : String) :
    (s.part account).submissions.length = s.submissionRank account s.submissions.length := by
  have hr : s.submissionRank account s.submissions.length =
      rank (·.request.sender = account) s.submissions s.submissions.length := rank_map ..
  rw [hr, rank_length, part]

private theorem taskRank_setStatus (s : Session) (id : Nat) (new : Status) :
    (s.setStatus id new).taskRank = s.taskRank := by
  funext account i
  simp only [taskRank, slots_setStatus]

private theorem within_congr (hs : s'.slots = s.slots) (hr : s'.requests = s.requests) (account : String) :
    Task.within s' account = Task.within s account := by
  funext ⟨slot, status⟩
  cases status <;> simp only [Task.within, Status.within, taskRank, submissionRank, hs, hr]

private theorem within_setStatus (s : Session) (id : Nat) (new : Status) (account : String) :
    Task.within (s.setStatus id new) account = Task.within s account :=
  within_congr (slots_setStatus s id new) rfl account

theorem part_setStatus {old : Status} (h : s.tasks[id]? = some ⟨slot, old⟩) (new : Status) :
    (s.setStatus id new).part slot.account =
      (s.part slot.account).setStatus (s.taskRank slot.account id) (new.within s slot.account) := by
  have hr : s.taskRank slot.account id = rank (·.slot.account = slot.account) s.tasks id := rank_map ..
  have hf := filter_modify (p := fun t : Task => decide (t.slot.account = slot.account))
    (f := fun t => { t with status := new }) h (by simp) (by simp)
  have hm := map_modify (f := fun t : Task => { t with status := new }) (Task.within s slot.account)
    (fun t => { t with status := new.within s slot.account }) fun _ => rfl
  simp only [part, within_setStatus, taskRank_setStatus]
  simp only [setStatus, hf, hm, hr]

theorem part_setStatus_of_ne {old : Status} (h : s.tasks[id]? = some ⟨slot, old⟩) (ha : slot.account ≠ account)
    (new : Status) : (s.setStatus id new).part account = s.part account := by
  have hf := filter_modify_of_not (p := fun t : Task => decide (t.slot.account = account))
    (f := fun t => { t with status := new }) (l := s.tasks) (i := id) (by
      intro t ht
      cases h.symm.trans ht
      simpa using ha)
  simp only [part, within_setStatus, taskRank_setStatus]
  simp only [setStatus, hf]

def submit (s : Session) (request : TxRequest) : Session :=
  { s with submissions := s.submissions ++ [⟨request, none⟩] }

private theorem grows_submit (s : Session) (request : TxRequest) : Grows s (s.submit request) :=
  ⟨List.prefix_refl _, ⟨[request], by simp [requests, submit]⟩⟩

private theorem part_submit (hl : Linked s) (request : TxRequest) (account : String) : (s.submit request).part account =
    if request.sender = account then (s.part account).submit request else s.part account := by
  have ht := (grows_submit s request).tasks_eq hl account
  have hi := (grows_submit s request).inFlight_eq hl account
  simp only [part, submit, List.filter_append] at ht hi ⊢
  rw [ht, hi]
  by_cases ha : request.sender = account <;> simp [ha]

private theorem grows_start (s : Session) (slot : KeySlot) : Grows s (s.start slot) :=
  ⟨⟨[slot], by simp [slots, start]⟩, List.prefix_refl _⟩

theorem part_start (hl : Linked s) (slot : KeySlot) (account : String) : (s.start slot).part account =
    if slot.account = account then (s.part account).start slot else s.part account := by
  have ht := (grows_start s slot).tasks_eq hl account
  have hi := (grows_start s slot).inFlight_eq hl account
  simp only [part, start, List.filter_append, List.map_append] at ht hi ⊢
  rw [ht, hi]
  by_cases ha : slot.account = account <;> simp [ha, Task.within, Status.within]

/-- Every session has the form of one with new keys, so a rewrite by this names the session. -/
theorem part_with_keys (s : Session) (keys : Table KeySlot String) (account : String) :
    part { s with keys } account = { s.part account with keys := keys.restrict (·.account = account) } := rfl

private theorem part_with_inFlight (s : Session) (inFlight : Table KeySlot Nat) (account : String) :
    part { s with inFlight } account =
      { s.part account with
        inFlight := (inFlight.restrict (·.account = account)).mapValues (s.taskRank account) } := rfl

private theorem inFlight_erase_part (s : Session) (slot : KeySlot) (account : String) :
    ((s.inFlight.erase slot).restrict (·.account = account)).mapValues (s.taskRank account) =
      (s.part account).inFlight.erase slot := by
  rw [Table.restrict_erase, Table.mapValues_erase, part]

private theorem inFlight_erase_part_of_ne (s : Session) (ha : slot.account ≠ account) :
    ((s.inFlight.erase slot).restrict (·.account = account)).mapValues (s.taskRank account) =
      (s.part account).inFlight := by
  rw [Table.restrict_erase_of_not _ (by simpa using ha), part]

private theorem inFlight_insert_part (s : Session) (slot : KeySlot) (id : Nat) :
    ((s.inFlight.insert slot id).restrict (·.account = slot.account)).mapValues (s.taskRank slot.account) =
      (s.part slot.account).inFlight.insert slot (s.taskRank slot.account id) := by
  rw [Table.restrict_insert _ _ (by simp), Table.mapValues_insert, part]

private theorem inFlight_insert_part_of_ne (s : Session) (ha : slot.account ≠ account) (id : Nat) :
    ((s.inFlight.insert slot id).restrict (·.account = account)).mapValues (s.taskRank account) =
      (s.part account).inFlight := by
  rw [Table.restrict_insert_of_not _ _ (by simpa using ha), part]

theorem part_release {old : Status} (h : s.tasks[id]? = some ⟨slot, old⟩) (new : Status) :
    part { s.setStatus id new with inFlight := s.inFlight.erase slot } slot.account =
      { (s.part slot.account).setStatus (s.taskRank slot.account id) (new.within s slot.account) with
        inFlight := (s.part slot.account).inFlight.erase slot } := by
  rw [part_with_inFlight, taskRank_setStatus, part_setStatus h, inFlight_erase_part]

theorem part_release_of_ne {old : Status} (h : s.tasks[id]? = some ⟨slot, old⟩) (ha : slot.account ≠ account)
    (new : Status) : part { s.setStatus id new with inFlight := s.inFlight.erase slot } account = s.part account := by
  rw [part_with_inFlight, taskRank_setStatus, part_setStatus_of_ne h ha, inFlight_erase_part_of_ne s ha]

/-- What a new leader does to the session. -/
def occupy (s : Session) (id : Nat) (slot : KeySlot) (epoch : Nat) (key : String) (request : TxRequest) : Session :=
  { s.setStatus id (.leading s.submissions.length epoch key) with
    inFlight := s.inFlight.insert slot id
    submissions := s.submissions ++ [⟨request, none⟩] }

private theorem occupy_eq (s : Session) (id : Nat) (slot : KeySlot) (epoch : Nat) (key : String) (request : TxRequest) :
    s.occupy id slot epoch key request =
      { (s.submit request).setStatus id (.leading s.submissions.length epoch key) with
        inFlight := (s.submit request).inFlight.insert slot id } := rfl

theorem part_occupy (hl : Linked s) {old : Status} (h : s.tasks[id]? = some ⟨slot, old⟩) (epoch : Nat) (key : String)
    (request : TxRequest) (hr : request.sender = slot.account) :
    (s.occupy id slot epoch key request).part slot.account =
      (s.part slot.account).occupy (s.taskRank slot.account id) slot epoch key request := by
  have hn : (s.submit request).submissionRank slot.account s.submissions.length =
      (s.part slot.account).submissions.length := by
    rw [(grows_submit s request).submissionRank_eq (Nat.le_of_eq (length_requests s).symm), length_submissions_part]
  have ht : (s.submit request).tasks[id]? = some ⟨slot, old⟩ := h
  -- The submission is made first: the leader's status names it, and its number has to be there.
  rw [occupy_eq, part_with_inFlight, taskRank_setStatus, part_setStatus ht, inFlight_insert_part, part_submit hl,
    if_pos hr, Status.within, hn]
  rfl

theorem part_occupy_of_ne (hl : Linked s) {old : Status} (h : s.tasks[id]? = some ⟨slot, old⟩) (epoch : Nat)
    (key : String) (request : TxRequest) (hr : request.sender = slot.account) (ha : slot.account ≠ account) :
    (s.occupy id slot epoch key request).part account = s.part account := by
  have ht : (s.submit request).tasks[id]? = some ⟨slot, old⟩ := h
  rw [occupy_eq, part_with_inFlight, taskRank_setStatus, part_setStatus_of_ne ht ha, inFlight_insert_part_of_ne _ ha,
    part_submit hl, if_neg (hr ▸ ha)]

theorem keys_insert_part (s : Session) (slot : KeySlot) (key : String) :
    (s.keys.insert slot key).restrict (·.account = slot.account) = (s.part slot.account).keys.insert slot key := by
  rw [Table.restrict_insert _ _ (by simp), part]

theorem keys_insert_part_of_ne (s : Session) (ha : slot.account ≠ account) (key : String) :
    (s.keys.insert slot key).restrict (·.account = account) = (s.part account).keys := by
  rw [Table.restrict_insert_of_not _ _ (by simpa using ha), part]

theorem part_finishLeader {old : Status} (h : s.tasks[id]? = some ⟨slot, old⟩) (epoch : Nat) (key : String)
    (outcome : Except Error TxResponse) :
    (s.finishLeader id slot epoch key outcome).1.part slot.account =
      ((s.part slot.account).finishLeader (s.taskRank slot.account id) slot epoch key outcome).1 := by
  -- Both leaders compare the same epochs, so they keep the key together or not at all.
  simp only [finishLeader, finish, epoch_part]
  refine (part_setStatus (s := { s with keys := _, inFlight := s.inFlight.erase slot }) h _).trans ?_
  rw [part_with_keys { s with inFlight := s.inFlight.erase slot }, part_with_inFlight, inFlight_erase_part]
  split
  · rw [keys_insert_part]
    rfl
  · rfl

theorem part_finishLeader_of_ne {old : Status} (h : s.tasks[id]? = some ⟨slot, old⟩) (ha : slot.account ≠ account)
    (epoch : Nat) (key : String) (outcome : Except Error TxResponse) :
    (s.finishLeader id slot epoch key outcome).1.part account = s.part account := by
  simp only [finishLeader, finish]
  refine (part_setStatus_of_ne (s := { s with keys := _, inFlight := s.inFlight.erase slot }) h ha _).trans ?_
  rw [part_with_keys { s with inFlight := s.inFlight.erase slot }, part_with_inFlight, inFlight_erase_part_of_ne s ha]
  split
  · rw [keys_insert_part_of_ne s ha]
  · rfl

private theorem within_settle (s : Session) (n : Nat) (outcome : Except Error TxResponse) (account : String) :
    Task.within (s.settle n outcome).1 account = Task.within s account := by
  have hs : (s.settle n outcome).1.slots = s.slots := rfl
  exact within_congr hs (requests_settle s n outcome) account

theorem part_settle {b : Submission} (h : s.submissions[n]? = some b) (outcome : Except Error TxResponse) :
    (s.settle n outcome).1.part b.request.sender =
      ((s.part b.request.sender).settle (s.submissionRank b.request.sender n) outcome).1 := by
  have hr : s.submissionRank b.request.sender n = rank (·.request.sender = b.request.sender) s.submissions n :=
    rank_map ..
  have hf := filter_modify (p := fun c : Submission => decide (c.request.sender = b.request.sender))
    (f := fun c => { c with outcome := some outcome }) h (by simp) (by simp)
  have hw := within_settle s n outcome b.request.sender
  simp only [part, hw, hr]
  simp only [Session.settle, hf]
  rfl

theorem part_settle_of_ne (h : ∀ b, s.submissions[n]? = some b → b.request.sender ≠ account)
    (outcome : Except Error TxResponse) : (s.settle n outcome).1.part account = s.part account := by
  have hf := filter_modify_of_not (p := fun c : Submission => decide (c.request.sender = account))
    (f := fun c => { c with outcome := some outcome }) (l := s.submissions) (i := n)
    (fun b hb => by simpa using h b hb)
  have hw := within_settle s n outcome account
  simp only [part, hw]
  simp only [Session.settle, hf]
  rfl

private theorem part_with_keys_epochs (s : Session) (keys : Table KeySlot String) (epochs : Table String Nat)
    (account : String) : part { s with keys, epochs } account =
      { s.part account with
        keys := keys.restrict (·.account = account), epochs := epochs.restrict (· = account) } := rfl

theorem part_disconnect (s : Session) (account : String) :
    (s.disconnect account).1.part account = ((s.part account).disconnect account).1 := by
  have hk : Table.restrict (s.keys.filter (·.1.account ≠ account)) (·.account = account) =
      (s.part account).keys.filter (·.1.account ≠ account) := by
    simp only [part, Table.restrict, List.filter_filter, Bool.and_comm]
  have he : (s.epochs.insert account (s.epoch account + 1)).restrict (· = account) =
      (s.part account).epochs.insert account ((s.part account).epoch account + 1) := by
    rw [Table.restrict_insert _ _ (by simp), epoch_part, part]
  rw [disconnect, disconnect, part_with_keys_epochs s, hk, he]

theorem part_disconnect_of_ne (s : Session) {other : String} (ha : other ≠ account) :
    (s.disconnect other).1.part account = s.part account := by
  have hk : Table.restrict (s.keys.filter (·.1.account ≠ other)) (·.account = account) = (s.part account).keys := by
    rw [Table.restrict, List.filter_filter, part]
    apply List.filter_congr
    intro e _
    by_cases h : e.1.account = account <;> simp [h, ha.symm]
  have he : (s.epochs.insert other (s.epoch other + 1)).restrict (· = account) = (s.part account).epochs := by
    rw [Table.restrict_insert_of_not _ _ (by simpa using ha), part]
  rw [disconnect, part_with_keys_epochs s, hk, he]

/-- A disconnection counts the account's own keys, however many others there are. -/
theorem disconnect_part_count (s : Session) (account : String) :
    ((s.part account).disconnect account).2 = (s.disconnect account).2 := by
  have hlen := List.length_eq_length_filter_add (l := s.keys) (·.1.account = account)
  have hnil : (s.part account).keys.filter (·.1.account ≠ account) = [] := by simp [part, Table.restrict]
  simp only [disconnect, hnil, List.length_nil]
  simp only [part, Table.restrict, ne_eq, decide_not]
  omega

theorem part_takeAnswer (s : Session) (q : BalanceQuery) (raw : Except Error Json) :
    (takeAnswer s q raw).1.part q.slot.account = (takeAnswer (s.part q.slot.account) q raw).1 ∧
      (takeAnswer s q raw).2 = (takeAnswer (s.part q.slot.account) q raw).2 := by
  unfold takeAnswer
  split
  · exact ⟨rfl, rfl⟩
  · split
    · exact ⟨rfl, rfl⟩
    · exact ⟨rfl, rfl⟩
    · rw [part_with_keys s (s.keys.erase q.slot), Table.restrict_erase]
      exact ⟨rfl, rfl⟩

private theorem part_with_queries (s : Session) (queries : List BalanceQuery) (account : String) :
    part { s with queries } account =
      { s.part account with queries := queries.filter (·.slot.account = account) } := rfl

theorem part_ask (s : Session) (q : BalanceQuery) (account : String) :
    part { s with queries := s.queries ++ [q] } account =
      if q.slot.account = account then { s.part account with queries := (s.part account).queries ++ [q] }
      else s.part account := by
  rw [part_with_queries s, List.filter_append]
  by_cases ha : q.slot.account = account <;> simp [ha, part]

theorem part_answered {q : BalanceQuery} (h : s.queries[n]? = some q) :
    part { s with queries := s.queries.modify n fun q => { q with answered := true } } q.slot.account =
      { s.part q.slot.account with
        queries := (s.part q.slot.account).queries.modify (s.queryRank q.slot.account n)
          fun q => { q with answered := true } } := by
  rw [part_with_queries s, filter_modify h (by simp) (by simp)]
  rfl

theorem part_answered_of_ne {q : BalanceQuery} (h : s.queries[n]? = some q) (ha : q.slot.account ≠ account) :
    part { s with queries := s.queries.modify n fun q => { q with answered := true } } account = s.part account := by
  have hf := filter_modify_of_not (p := fun q : BalanceQuery => decide (q.slot.account = account))
    (f := fun q => { q with answered := true }) (l := s.queries) (i := n) (by
      intro b hb
      cases h.symm.trans hb
      simpa using ha)
  rw [part_with_queries s, hf]
  rfl

end LiquidityBook.Session
