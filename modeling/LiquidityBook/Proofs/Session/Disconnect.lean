import LiquidityBook.Proofs.Session.Cache
import Mathlib.Data.Set.Card

/-! Disconnecting an account forgets its keys for good: no request that was polled before brings one back,
whatever happens in between. -/
namespace LiquidityBook.Session
variable {u : Setup} {s : Session} {slot : KeySlot} {key : String}

/-- The run puts the key into the slot and does not disconnect its account any more. The key is imported,
or it is issued to a request that leads since its first poll, which is in the run and after every
disconnection of the account. -/
inductive Renewed (u : Setup) (s : Session) (slot : KeySlot) (key : String) : List Event → Prop where
  | imported {p q} (hi : (importKey u (run u s p).1 slot key).2 = .ok ())
      (hd : ∀ e ∈ q, e.disconnects slot.account = false) : Renewed u s slot key (p ++ .importKey slot key :: q)
  | issued {p m q id n epoch r} (hf : (run u s p).1.tasks[id]? = some ⟨slot, .fresh⟩)
      (hl : (run u s (p ++ .poll id :: m)).1.tasks[id]? = some ⟨slot, .leading n epoch key⟩)
      (ho : (run u s (p ++ .poll id :: m)).1.outcomeOf? n = some (.ok r)) (hc : r.code = 0)
      (hd : ∀ e ∈ m ++ q, e.disconnects slot.account = false) :
      Renewed u s slot key ((p ++ .poll id :: m) ++ .poll id :: q)

theorem find?_keys_disconnect (s : Session) (account : String) (slot : KeySlot) :
    (s.disconnect account).1.keys.find? slot = if slot.account = account then none else s.keys.find? slot := by
  have hf := Table.find?_filter s.keys (fun a => decide (a.account ≠ account)) slot
  simp only [Session.disconnect, hf, decide_eq_true_eq, ite_not]

private theorem epoch_disconnect_self (s : Session) (account : String) :
    (s.disconnect account).1.epoch account = s.epoch account + 1 := by
  simp [epoch, Session.disconnect, Table.find?_insert_self]

/-- The count of a disconnection is the number of slots that lose their key. -/
theorem forgotten_eq_ncard (h : (s.keys.map (·.1)).Nodup) (account : String) :
    (s.disconnect account).2 = {slot | slot.account = account ∧ (s.keys.find? slot).isSome}.ncard := by
  have hset : {slot | slot.account = account ∧ (s.keys.find? slot).isSome} =
      (((s.keys.filter (·.1.account = account)).map (·.1)).toFinset : Set KeySlot) := by
    ext slot
    simp only [Set.mem_ofPred_eq, Table.isSome_find?_iff, List.coe_toFinset, List.mem_map, List.mem_filter]
    constructor
    · rintro ⟨ha, entry, he, rfl⟩
      exact ⟨entry, ⟨he, by simpa using ha⟩, rfl⟩
    · rintro ⟨entry, ⟨he, ha⟩, rfl⟩
      exact ⟨by simpa using ha, entry, he, rfl⟩
  have hlen := List.length_eq_length_filter_add (l := s.keys) (·.1.account = account)
  rw [hset, Set.ncard_coe_finset, List.toFinset_card_of_nodup (Table.nodup_filter h _), List.length_map]
  simp only [Session.disconnect, ne_eq, decide_not]
  omega

/-- The session right after a run at whose end the account is disconnected. -/
def severed (u : Setup) (pre : List Event) (account : String) : Session := ((after u pre).disconnect account).1

private theorem leading_since {pre post : List Event} {id n epoch : Nat}
    (ht : (run u (severed u pre slot.account) post).1.tasks[id]? = some ⟨slot, .leading n epoch key⟩)
    (he : epoch = (run u (severed u pre slot.account) post).1.epoch slot.account) :
    ∃ p m, post = p ++ .poll id :: m ∧
      (run u (severed u pre slot.account) p).1.tasks[id]? = some ⟨slot, .fresh⟩ ∧
      ∀ e ∈ m, e.disconnects slot.account = false := by
  rcases leading_run ht with hs | ⟨p, m, rfl, hf, _, hp⟩
  · have hle : epoch ≤ (after u pre).epoch slot.account := epoch_le_of_leading hs
    have hrun := epoch_run u (severed u pre slot.account) post slot.account
    rw [severed, epoch_disconnect_self] at hrun
    rw [severed] at he
    omega
  · refine ⟨p, m, rfl, hf, ?_⟩
    have hrun := epoch_run u (run u (severed u pre slot.account) p).1 (.poll id :: m) slot.account
    rw [← run_append, ← hp, ← he] at hrun
    have hm : (Event.poll id :: m).countP (·.disconnects slot.account) = 0 := by omega
    intro e hem
    simpa using List.countP_eq_zero.1 hm e (List.mem_cons_of_mem _ hem)

private theorem renewed_of_cached {pre post : List Event}
    (h : (run u (severed u pre slot.account) post).1.keys.find? slot = some key) :
    Renewed u (severed u pre slot.account) slot key post := by
  rcases key_run h with ⟨hs, _⟩ | ⟨p, e, q, rfl, hw, hq⟩
  · rw [severed, find?_keys_disconnect, if_pos rfl] at hs
    cases hs
  · cases hw with
    | imported hr hv => exact .imported (by simp only [importKey, hr, hv, if_true]) hq
    | issued ht ho hc =>
      obtain ⟨p, m, rfl, hf, hm⟩ := leading_since ht rfl
      refine .issued hf ht ho hc ?_
      simpa [or_imp, forall_and] using ⟨hm, hq⟩

private theorem keys_poll_of_stale {pre post : List Event} {id : Nat} {status : Status}
    (ht : (after u pre).tasks[id]? = some ⟨slot, status⟩) (hf : status ≠ .fresh) :
    (step u (run u (severed u pre slot.account) post).1 (.poll id)).1.keys =
      (run u (severed u pre slot.account) post).1.keys := by
  rcases (step_transition u (run u (severed u pre slot.account) post).1 (.poll id)).keys_poll with
    hk | ⟨own, n, k, hl, _⟩
  · exact hk
  · obtain ⟨_, hs, _⟩ := polled_run u post (s := severed u pre slot.account) ht hf
    cases hl.symm.trans hs
    obtain ⟨p, m, rfl, hp, _⟩ := leading_since hl rfl
    obtain ⟨_, hs, hn⟩ := polled_run u p (s := severed u pre slot.account) ht hf
    cases hp.symm.trans hs
    exact absurd rfl hn

/-- From a disconnection on, a request that was polled before leaves the cache alone for ever, and the
account's keys are gone until one is imported or issued to a request that was first polled after the latest
disconnection. A disconnection takes exactly the keys of its account and tells how many they were. The
epochs that requests compare are counts of disconnections. -/
theorem disconnect_safety (u : Setup) (pre post : List Event) (account : String) :
    let before := after u pre
    let opened := severed u pre account
    let s := (run u opened post).1
    (∀ id slot status, before.tasks[id]? = some ⟨slot, status⟩ → status ≠ .fresh → slot.account = account →
      (step u s (.poll id)).1.keys = s.keys) ∧
    (∀ slot, slot.account = account →
      (s.get slot = .error (.keyNotFound slot.token account) ∧ s.state slot ≠ .cached) ∨
        ∃ key, s.get slot = .ok key ∧ Renewed u opened slot key post) ∧
    (∀ slot, opened.keys.find? slot = if slot.account = account then none else before.keys.find? slot) ∧
    (before.disconnect account).2 =
      {slot | slot.account = account ∧ (before.keys.find? slot).isSome}.ncard ∧
    opened.inFlight = before.inFlight ∧ opened.tasks = before.tasks ∧
    before.epoch account = pre.countP (·.disconnects account) := by
  intro before opened s
  refine ⟨?_, ?_, find?_keys_disconnect before account, forgotten_eq_ncard (keys_nodup_after u pre) account,
    rfl, rfl, ?_⟩
  · rintro id slot status ht hf rfl
    exact keys_poll_of_stale ht hf
  · rintro slot rfl
    cases hk : s.keys.find? slot with
    | none => exact .inl ⟨by simp only [get, hk], by simp [state_eq_cached_iff, hk]⟩
    | some key => exact .inr ⟨key, by simp only [get, hk], renewed_of_cached hk⟩
  · have hrun := epoch_run u empty pre account
    rwa [show empty.epoch account = 0 from rfl, Nat.zero_add] at hrun

end LiquidityBook.Session
