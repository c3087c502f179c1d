import LiquidityBook.Proofs.Numbering
import LiquidityBook.Proofs.Session.Ledger
import LiquidityBook.Proofs.Session.Waiting

/-! Numbers never change their meaning. A session keeps whatever was started or submitted, and what its requests refer
to is there and belongs to their accounts. -/
namespace LiquidityBook.Session
variable {u : Setup} {s s' : Session} {e : Event} {o : Observation} {id : Nat} {slot : KeySlot}

/-- The slots of the requests, in the order in which they were started. -/
def slots (s : Session) : List KeySlot := s.tasks.map Task.slot

/-- Whatever was started or submitted is still there under its number. -/
structure Grows (s s' : Session) : Prop where
  slots : s.slots <+: s'.slots
  requests : s.requests <+: s'.requests

/-- What requests refer to is there: a leader's submission was made for its account, and a waiter and an entry in
flight name a request for the same slot. -/
structure Linked (s : Session) : Prop where
  submission : ∀ (id : Nat) (slot : KeySlot) (n epoch : Nat) (key : String),
    s.tasks[id]? = some ⟨slot, .leading n epoch key⟩ →
      ∃ request, s.requests[n]? = some request ∧ request.sender = slot.account
  leader : ∀ (id : Nat) (slot : KeySlot) (leader : Nat), s.tasks[id]? = some ⟨slot, .waiting leader⟩ →
    s.slots[leader]? = some slot
  entry : ∀ e ∈ s.inFlight, s.slots[e.2]? = some e.1

@[simp] theorem slots_setStatus (s : Session) (id : Nat) (new : Status) : (s.setStatus id new).slots = s.slots := by
  apply List.ext_getElem?
  intro i
  simp only [slots, setStatus, List.getElem?_map, List.getElem?_modify]
  cases s.tasks[i]? with
  | none => rfl
  | some t => by_cases hi : id = i <;> simp [hi]

private theorem getElem?_slots {status : Status} (h : s.tasks[id]? = some ⟨slot, status⟩) :
    s.slots[id]? = some slot := by
  simp [slots, h]

private theorem Transition.grows (h : Transition u s e s' o) (hf : SingleFlight s) : Grows s s' where
  slots := by
    have moved {i : Nat} {new : Status} (ht : s'.tasks = (s.setStatus i new).tasks) : s.slots <+: s'.slots := by
      have hs : s'.slots = s.slots := (congrArg (List.map Task.slot) ht).trans (slots_setStatus s i new)
      exact hs ▸ List.prefix_refl _
    cases h with
    | start new => exact ⟨[new], by simp [slots, Session.start]⟩
    | resolve _ _ | join _ _ _ _ | lead _ _ _ _ | close _ _ | release _ | abandon _ _ _ => exact moved rfl
    | answer _ _ => simp [slots]
    | _ => exact List.prefix_refl _
  requests := by
    rcases h.requests_cases hf with ⟨_, _, _, hr⟩ | ⟨_, hr⟩
    · exact hr ▸ List.prefix_append ..
    · exact hr ▸ List.prefix_refl _

theorem grows_run (u : Setup) (es : List Event) (hf : SingleFlight s) : Grows s (run u s es).1 := by
  have h := run_induction (u := u) (P := fun s' => SingleFlight s' ∧ Grows s s')
    (fun _ _ _ _ h ht =>
      have hg := ht.grows h.1
      ⟨ht.singleFlight h.1, h.2.slots.trans hg.slots, h.2.requests.trans hg.requests⟩)
    ⟨hf, List.prefix_refl _, List.prefix_refl _⟩ es
  exact h.2

theorem Transition.linked (h : Transition u s e s' o) (hf : SingleFlight s) (hl : Linked s) : Linked s' := by
  have hg := h.grows hf
  refine ⟨?_, ?_, ?_⟩
  · intro id slot n epoch key ht
    rcases h.leading_cases ht with hs | ⟨rfl, hfr, _⟩
    · obtain ⟨request, hr, ha⟩ := hl.submission id slot n epoch key hs
      exact ⟨request, getElem?_of_prefix hg.requests hr, ha⟩
    · obtain ⟨rfl, _, _, token, _, _, _, hs⟩ := h.led hfr ht
      exact ⟨u.issuance token slot.account s.submissions.length, by simp [requests, hs], rfl⟩
  -- Whoever joins reads its leader off the entry in flight.
  · intro id slot leader ht
    rcases h.waiting_cases ht with hs | ⟨_, _, _, _, hi⟩
    · exact getElem?_of_prefix hg.slots (hl.leader id slot leader hs)
    · exact getElem?_of_prefix hg.slots (hl.entry _ (Table.mem_of_find?_eq_some hi))
  · have old {entry : KeySlot × Nat} (he : entry ∈ s.inFlight) := getElem?_of_prefix hg.slots (hl.entry entry he)
    cases h with
    | lead ht _ _ _ =>
      rintro entry he
      rcases List.mem_cons.1 he with rfl | he
      · exact getElem?_of_prefix hg.slots (getElem?_slots ht)
      · exact old (List.mem_of_mem_filter he)
    | close _ _ => exact fun entry he => old (List.mem_of_mem_filter he)
    | release _ => exact fun entry he => old (List.mem_of_mem_filter he)
    | answer _ _ => exact fun entry he => old (by simpa using he)
    | _ => exact fun entry he => old he

theorem linked_empty : Linked empty := ⟨nofun, nofun, nofun⟩

end LiquidityBook.Session
