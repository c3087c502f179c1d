import LiquidityBook.Proofs.Session.History

/-! At most one request leads a slot, and the slots in flight are those that are led. -/
namespace LiquidityBook.Session
variable {u : Setup} {s s' : Session} {e : Event} {o : Observation}

def Ended (s : Session) (id : Nat) : Prop := ∃ t, s.tasks[id]? = some t ∧ t.status.isLive = false

/-- The slots in flight are entered with their leaders, and all leaders are entered. -/
def SingleFlight (s : Session) : Prop := ∀ slot id, s.inFlight.find? slot = some id ↔ s.Leads id slot

private theorem SingleFlight.unique (h : SingleFlight s) {i j : Nat} {slot : KeySlot} (hi : s.Leads i slot)
    (hj : s.Leads j slot) : i = j :=
  Option.some.inj (((h slot i).2 hi).symm.trans ((h slot j).2 hj))

theorem Leads.slot_eq {id : Nat} {a b : KeySlot} (ha : s.Leads id a) (hb : s.Leads id b) : a = b := by
  obtain ⟨_, _, _, ha⟩ := ha
  obtain ⟨_, _, _, hb⟩ := hb
  cases ha.symm.trans hb
  rfl

theorem leads_congr {id : Nat} {slot : KeySlot} (h : s'.tasks[id]? = s.tasks[id]?) :
    s'.Leads id slot ↔ s.Leads id slot := by
  simp only [Leads, h]

theorem not_leads_of_status {id : Nat} {slot own : KeySlot} {status : Status}
    (ht : s.tasks[id]? = some ⟨own, status⟩) (hn : status.isLeading = false) : ¬ s.Leads id slot := by
  rintro ⟨n, epoch, key, hs⟩
  cases ht.symm.trans hs
  cases hn

private theorem SingleFlight.quiet {i : Nat} {own : KeySlot} {old : Status} (h : SingleFlight s)
    (ht : s.tasks[i]? = some ⟨own, old⟩) (ho : old.isLeading = false) (new : Status)
    (hn : new.isLeading = false) : SingleFlight (s.setStatus i new) := by
  intro slot id
  by_cases hi : i = id
  · subst hi
    exact (h slot i).trans
      (iff_of_false (not_leads_of_status ht ho) (not_leads_of_status (tasks_setStatus_self ht) hn))
  · exact (h slot id).trans (leads_congr (tasks_setStatus_of_ne hi)).symm

private theorem SingleFlight.ended {i : Nat} {own : KeySlot} (h : SingleFlight s) (hl : s.Leads i own)
    (new : Status) (hn : new.isLeading = false) (hf : s'.inFlight = s.inFlight.erase own)
    (ht : s'.tasks = (s.setStatus i new).tasks) : SingleFlight s' := by
  intro slot id
  have hs : s'.Leads id slot ↔ (s.setStatus i new).Leads id slot := leads_congr (by rw [ht])
  rw [hs, hf]
  have hi := hl
  obtain ⟨_, _, _, hi⟩ := hi
  by_cases hid : i = id
  · subst hid
    refine iff_of_false ?_ (not_leads_of_status (tasks_setStatus_self hi) hn)
    by_cases hsl : own = slot
    · subst hsl
      simp [Table.find?_erase_self]
    · rw [Table.find?_erase_of_ne _ hsl, h slot i]
      exact fun hk => hsl (hl.slot_eq hk)
  · rw [leads_congr (tasks_setStatus_of_ne hid), ← h slot id]
    by_cases hsl : own = slot
    · subst hsl
      rw [Table.find?_erase_self, (h own i).2 hl]
      simpa using hid
    · rw [Table.find?_erase_of_ne _ hsl]

private theorem SingleFlight.led {i n epoch : Nat} {own : KeySlot} {key : String} (h : SingleFlight s)
    (ht : s.tasks[i]? = some ⟨own, .fresh⟩) (hf : s.inFlight.find? own = none)
    (hf' : s'.inFlight = s.inFlight.insert own i)
    (ht' : s'.tasks = (s.setStatus i (.leading n epoch key)).tasks) : SingleFlight s' := by
  intro slot id
  have hs : s'.Leads id slot ↔ (s.setStatus i (.leading n epoch key)).Leads id slot :=
    leads_congr (by rw [ht'])
  have hown : (s.setStatus i (.leading n epoch key)).Leads i own := ⟨n, epoch, key, tasks_setStatus_self ht⟩
  rw [hs, hf']
  by_cases hsl : own = slot
  · subst hsl
    rw [Table.find?_insert_self]
    by_cases hid : i = id
    · subst hid
      exact iff_of_true rfl hown
    · rw [leads_congr (tasks_setStatus_of_ne hid), ← h own id, hf]
      simpa using hid
  · rw [Table.find?_insert_of_ne _ _ hsl, h slot id]
    by_cases hid : i = id
    · subst hid
      exact iff_of_false (not_leads_of_status ht rfl) fun hk => hsl (hown.slot_eq hk)
    · exact (leads_congr (tasks_setStatus_of_ne hid)).symm

theorem Transition.singleFlight (ht : Transition u s e s' o) (h : SingleFlight s) : SingleFlight s' := by
  cases ht with
  | idle _ | settle _ _ | keep _ _ | disconnect _ | ask _ => exact h
  | answer _ _ =>
    intro slot id
    simpa [Leads] using h slot id
  | start new =>
    intro slot id
    refine (h slot id).trans ?_
    rcases tasks_start s new id with hs | ⟨hn, hs⟩
    · exact (leads_congr hs).symm
    · simp [Leads, hn, hs]
  | resolve ht hr => exact h.quiet ht (by cases hr <;> rfl) _ rfl
  | join ht _ _ _ => exact h.quiet ht rfl _ rfl
  | abandon ht _ hn => exact h.quiet ht hn _ rfl
  | lead ht _ _ hf => exact h.led ht hf rfl rfl
  | close ht _ => exact h.ended ⟨_, _, _, ht⟩ _ rfl rfl rfl
  | release ht => exact h.ended ⟨_, _, _, ht⟩ _ rfl rfl rfl

theorem singleFlight_after (u : Setup) (es : List Event) : SingleFlight (after u es) := by
  refine after_induction ?_ (fun _ _ _ _ h ht => ht.singleFlight h) es
  intro slot id
  simp [empty, Leads, Table.find?]

private theorem Transition.leads_or_ended {id : Nat} {slot : KeySlot} (ht : Transition u s e s' o)
    (hl : s.Leads id slot) : s'.Leads id slot ∨ ((e = .poll id ∨ e = .drop id) ∧ s'.Ended id) := by
  have hs := hl
  obtain ⟨_, _, _, hs⟩ := hs
  rcases ht.task_cases id with hk | ⟨hn, _⟩ | ⟨_, _, _, hk, hk', ha⟩
  · exact .inl ((leads_congr hk).2 hl)
  · cases hs.symm.trans hn
  · cases hs.symm.trans hk
    cases ha with
    | resolve hr => cases hr
    | close _ => exact .inr ⟨.inl rfl, _, hk', rfl⟩
    | drop _ => exact .inr ⟨.inr rfl, _, hk', rfl⟩

/-- A leader that ends leaves its slot free. -/
theorem Transition.freed {id : Nat} {slot : KeySlot} (ht : Transition u s e s' o) (h : SingleFlight s)
    (hl : s.Leads id slot) (he : (e = .poll id ∨ e = .drop id) ∧ s'.Ended id) :
    s'.inFlight.find? slot = none := by
  obtain ⟨he, t, hid, hend⟩ := he
  cases hf : s'.inFlight.find? slot with
  | none => rfl
  | some j =>
    obtain ⟨n, epoch, key, hj⟩ := (ht.singleFlight h slot j).1 hf
    have hne : j ≠ id := by
      rintro rfl
      cases hj.symm.trans hid
      cases hend
    rcases ht.leading_cases hj with hs | ⟨rfl, _, _⟩
    · exact absurd (h.unique ⟨_, _, _, hs⟩ hl) hne
    · rcases he with he | he
      · cases he
        exact absurd rfl hne
      · cases he

/-- In every state that a run can reach, a slot is in flight exactly if one request leads it, and no two
do. An entry goes only with its own leader, by a poll or a drop that ends that leader, and then the slot is
free. What is shown of a slot follows from its key and its leader alone. -/
theorem single_flight (u : Setup) (es : List Event) (slot : KeySlot) :
    let s := after u es
    ((s.inFlight.find? slot).isSome ↔ ∃! id, s.Leads id slot) ∧
    (∀ i j, s.Leads i slot → s.Leads j slot → i = j) ∧
    (∀ e id, s.inFlight.find? slot = some id → (step u s e).1.inFlight.find? slot = some id ∨
      ((e = .poll id ∨ e = .drop id) ∧ (step u s e).1.Ended id)) ∧
    (∀ e id, s.Leads id slot → (step u s e).1.Leads id slot ∨
      ((step u s e).1.Ended id ∧ (step u s e).1.state slot ≠ .requested)) ∧
    (s.state slot = .cached ↔ (s.keys.find? slot).isSome) ∧
    (s.state slot = .requested ↔ s.keys.find? slot = none ∧ ∃ id, s.Leads id slot) ∧
    (s.state slot = .unissued ↔ s.keys.find? slot = none ∧ ¬ ∃ id, s.Leads id slot) := by
  intro s
  have h : SingleFlight s := singleFlight_after u es
  have hled : (s.inFlight.find? slot).isSome ↔ ∃ id, s.Leads id slot := by
    simp only [Option.isSome_iff_exists, h slot]
  refine ⟨?_, fun i j hi hj => h.unique hi hj, ?_, ?_, ?_, ?_, ?_⟩
  · rw [hled]
    constructor
    · rintro ⟨id, hl⟩
      exact ⟨id, hl, fun j hj => h.unique hj hl⟩
    · rintro ⟨id, hl, _⟩
      exact ⟨id, hl⟩
  · intro e id hf
    have ht := step_transition u s e
    exact (ht.leads_or_ended ((h slot id).1 hf)).imp_left (ht.singleFlight h slot id).2
  · intro e id hl
    have ht := step_transition u s e
    rcases ht.leads_or_ended hl with hl' | he
    · exact .inl hl'
    · refine .inr ⟨he.2, ?_⟩
      rw [ne_eq, state_eq_requested_iff, ht.freed h hl he]
      simp
  · exact state_eq_cached_iff
  · rw [state_eq_requested_iff, hled]
  · rw [state_eq_unissued_iff, ← hled, Bool.not_eq_true, Option.isSome_eq_false_iff, Option.isNone_iff_eq_none]

end LiquidityBook.Session
