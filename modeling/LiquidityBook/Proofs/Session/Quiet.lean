import LiquidityBook.Proofs.Session.Ending
import Mathlib.Data.List.Perm.Subperm

/-! Polling to the end. As long as a pass over the live requests ends one of them there may be more to come; after a
pass that ends none, no poll of a request that was polled before moves anything. -/
namespace LiquidityBook.Session
variable {u : Setup} {s s' s'' : Session} {o : Observation} {id : Nat} {ids : List Nat} {slot : KeySlot}

/-- No poll of a request that was polled before moves anything. -/
def Quiet (u : Setup) (s : Session) : Prop :=
  ∀ id t, s.tasks[id]? = some t → t.status ≠ .fresh → (step u s (.poll id)).1 = s

/-- What passes between two sessions where polls end no request: only requests that were fresh move. -/
structure Calm (s s' : Session) : Prop where
  length_eq : s'.tasks.length = s.tasks.length
  started : ∀ (i : Nat) (t : Task), s.tasks[i]? = some t → t.status ≠ .fresh → s'.tasks[i]? = some t
  ended : ∀ i, s'.Ended i → s.Ended i
  outcome_eq : ∀ n, s'.outcomeOf? n = s.outcomeOf? n

private theorem not_fresh_of_ended {status : Status} (h : status.isLive = false) : status ≠ .fresh := by
  rintro rfl
  cases h

private theorem Calm.refl (s : Session) : Calm s s := ⟨rfl, fun _ _ h _ => h, fun _ h => h, fun _ => rfl⟩

private theorem Calm.trans (h : Calm s s') (h' : Calm s' s'') : Calm s s'' where
  length_eq := h'.length_eq.trans h.length_eq
  started i t ht hf := h'.started i t (h.started i t ht hf) hf
  ended i hi := h.ended i (h'.ended i hi)
  outcome_eq n := (h'.outcome_eq n).trans (h.outcome_eq n)

/-- What a poll does not move it does not move later either, as long as nothing ends. -/
private theorem Calm.idle (h : Calm s s') (hi : Idle u s (.poll id) .nothing) : Idle u s' (.poll id) .nothing := by
  rcases hi with hn | ⟨ht, hl⟩ | ⟨ht, ho⟩ | ⟨ht, hl⟩
  · apply Idle.unknown
    rw [List.getElem?_eq_none_iff] at hn ⊢
    exact h.length_eq ▸ hn
  · exact .ended (h.started id _ ht (not_fresh_of_ended hl)) hl
  · exact .unsettled (h.started id _ ht nofun) ((h.outcome_eq _).trans ho)
  · refine .waiting (h.started id _ ht nofun) ?_
    intro status hs
    by_contra hn
    obtain ⟨slot, hs⟩ := statusOf?_eq_some_iff.1 hs
    obtain ⟨t, ht', hend⟩ := h.ended _ ⟨_, hs, by simpa using hn⟩
    have hlive := hl t.status (statusOf?_eq_some_iff.2 ⟨t.slot, ht'⟩)
    rw [hend] at hlive
    cases hlive

private theorem step_poll_of_idle (h : Idle u s (.poll id) .nothing) : (step u s (.poll id)).1 = s := by
  rcases h with hn | ⟨ht, hl⟩ | ⟨ht, ho⟩ | ⟨ht, hl⟩
  · simp [step, poll, hn]
  · rename_i t
    obtain ⟨slot, status⟩ := t
    cases status with
    | finished _ | dropped => simp [step, poll, ht]
    | _ => cases hl
  · simp only [outcomeOf?] at ho
    simp [step, poll, ht, ho]
  · simp only [step, poll, ht]
    split
    · cases hl _ ‹_›
    · cases hl _ ‹_›
    · rfl

private theorem calm_of_fresh {new : Status} (ht : s.tasks[id]? = some ⟨slot, .fresh⟩) (hl : new.isLive)
    (hs : s'.tasks = (s.setStatus id new).tasks) (ho : ∀ n, s'.outcomeOf? n = s.outcomeOf? n) : Calm s s' where
  length_eq := by simp [hs, setStatus]
  started i t hi hf := by
    have hne : id ≠ i := by
      rintro rfl
      cases ht.symm.trans hi
      exact hf rfl
    rw [hs, tasks_setStatus_of_ne hne, hi]
  ended i := by
    rintro ⟨t, hi, hend⟩
    rw [hs] at hi
    by_cases hid : id = i
    · subst hid
      cases hi.symm.trans (tasks_setStatus_self ht)
      cases hl.symm.trans hend
    · rw [tasks_setStatus_of_ne hid] at hi
      exact ⟨t, hi, hend⟩
  outcome_eq := ho

/-- A poll that ends nothing leaves its request where no poll moves it. -/
theorem Transition.calm (ht : Transition u s (.poll id) s' .nothing) (h : SingleFlight s) :
    Calm s s' ∧ Idle u s' (.poll id) .nothing := by
  cases ht with
  | idle hi => exact ⟨.refl s, hi⟩
  | @join _ slot _ leader hf _ _ hl =>
    obtain ⟨n, epoch, key, hlead⟩ := (h slot leader).1 hl
    have hne : id ≠ leader := by
      rintro rfl
      cases hf.symm.trans hlead
    refine ⟨calm_of_fresh hf rfl rfl fun _ => rfl, .waiting (tasks_setStatus_self hf) ?_⟩
    intro status hs
    rw [statusOf?, tasks_setStatus_of_ne hne, hlead] at hs
    cases hs
    rfl
  | lead hf _ _ _ =>
    refine ⟨calm_of_fresh hf rfl rfl (outcomeOf?_of_submissions rfl), .unsettled (tasks_setStatus_self hf) ?_⟩
    simp [outcomeOf?]

theorem singleFlight_run (u : Setup) (h : SingleFlight s) (es : List Event) : SingleFlight (run u s es).1 :=
  run_induction (fun _ _ _ _ hs ht => ht.singleFlight hs) h es

private theorem pollEach_eq_run (u : Setup) (s : Session) (ids : List Nat) :
    (pollEach u s ids).1 = (run u s (ids.map .poll)).1 := by
  induction ids generalizing s with
  | nil => rfl
  | cons id ids ih => exact ih (poll u s id).1

private theorem pollEach_calm (h : SingleFlight s) (hd : (pollEach u s ids).2 = []) :
    Calm s (pollEach u s ids).1 ∧ ∀ id ∈ ids, Idle u (pollEach u s ids).1 (.poll id) .nothing := by
  induction ids generalizing s with
  | nil => exact ⟨.refl s, nofun⟩
  | cons id ids ih =>
    simp only [pollEach, List.append_eq_nil_iff] at hd
    obtain ⟨hres, hrest⟩ := hd
    have ht := step_transition u s (.poll id)
    have hnone : (poll u s id).2 = none := by simpa using hres
    simp only [step, hnone, Option.elim_none] at ht
    obtain ⟨hcalm, hidle⟩ := ht.calm h
    obtain ⟨hcalm', hidle'⟩ := ih (ht.singleFlight h) hrest
    exact ⟨hcalm.trans hcalm', List.forall_mem_cons.2 ⟨hcalm'.idle hidle, hidle'⟩⟩

private theorem mem_live : id ∈ s.live ↔ ∃ t, s.tasks[id]? = some t ∧ t.status.isLive := by
  simp only [live, List.mem_filter, List.mem_range]
  constructor
  · rintro ⟨hlt, hl⟩
    rw [List.getElem?_eq_getElem hlt] at hl ⊢
    exact ⟨_, rfl, hl⟩
  · rintro ⟨t, ht, hl⟩
    exact ⟨(List.getElem?_eq_some_iff.1 ht).1, by simpa [ht] using hl⟩

/-- After a pass over all live requests that ended none, the session is quiet. -/
theorem quiet_of_pollEach (h : SingleFlight s) (hd : (pollEach u s s.live).2 = []) :
    Quiet u (pollEach u s s.live).1 := by
  obtain ⟨hcalm, hidle⟩ := pollEach_calm h hd
  intro id t ht hf
  apply step_poll_of_idle
  by_cases hl : t.status.isLive
  · refine hidle id (mem_live.2 ?_)
    have hlt : id < s.tasks.length := hcalm.length_eq ▸ (List.getElem?_eq_some_iff.1 ht).1
    refine ⟨_, List.getElem?_eq_getElem hlt, ?_⟩
    by_contra hn
    have hold := hcalm.started id _ (List.getElem?_eq_getElem hlt) (not_fresh_of_ended (by simpa using hn))
    cases ht.symm.trans hold
    exact hn hl
  · exact .ended ht (by simpa using hl)

private theorem Transition.length_live (ht : Transition u s (.poll id) s' o) :
    s'.live.length ≤ s.live.length ∧ ∀ result, o = .ended result → s'.live.length < s.live.length := by
  have hnodup : s'.live.Nodup := List.nodup_range.filter _
  have hsub : ∀ i ∈ s'.live, i ∈ s.live := by
    intro i hi
    obtain ⟨t, hs, hl⟩ := mem_live.1 hi
    rcases ht.task_cases i with hk | ⟨_, _, he, _⟩ | ⟨slot, old, _, hk, _, ha⟩
    · exact mem_live.2 ⟨t, hk ▸ hs, hl⟩
    · cases he
    · exact mem_live.2 ⟨_, hk, ha.isLive⟩
  refine ⟨(hnodup.subperm hsub).length_le, ?_⟩
  rintro result rfl
  have hid : id ∈ s.live := by
    cases ht with
    | idle hi => cases hi
    | resolve hs hr =>
      refine mem_live.2 ⟨_, hs, ?_⟩
      cases hr <;> rfl
    | close hs _ => exact mem_live.2 ⟨_, hs, rfl⟩
  have hnot : id ∉ s'.live := by
    intro hi
    obtain ⟨slot, hf⟩ := statusOf?_eq_some_iff.1 (ht.finished_iff.2 (.inr ⟨rfl, rfl⟩))
    obtain ⟨t, hs, hl⟩ := mem_live.1 hi
    cases hf.symm.trans hs
    cases hl
  have hcons : (id :: s'.live).Subperm s.live :=
    (List.nodup_cons.2 ⟨hnot, hnodup⟩).subperm (List.forall_mem_cons.2 ⟨hid, hsub⟩)
  exact hcons.length_le

private theorem length_live_pollEach (u : Setup) (s : Session) (ids : List Nat) :
    (pollEach u s ids).1.live.length + (pollEach u s ids).2.length ≤ s.live.length := by
  induction ids generalizing s with
  | nil => exact Nat.le_refl _
  | cons id ids ih =>
    have hrest := ih (poll u s id).1
    have ht := step_transition u s (.poll id)
    simp only [step] at ht
    obtain ⟨hle, hlt⟩ := ht.length_live
    simp only [pollEach, List.length_append]
    cases hres : (poll u s id).2 with
    | none =>
      simp only [Option.map_none, Option.toList_none, List.length_nil]
      omega
    | some result =>
      have hlt := hlt result (by rw [hres]; rfl)
      simp only [Option.map_some, Option.toList_some, List.length_singleton]
      omega

/-- Every pass but the last ends a request, so passes for all live requests are enough. -/
private theorem quiet_passes (h : SingleFlight s) {left : Nat} (hl : s.live.length ≤ left) :
    Quiet u (pollAll.passes u left s).1 := by
  induction left generalizing s with
  | zero =>
    have hlive : s.live = [] := List.length_eq_zero_iff.1 (Nat.le_zero.1 hl)
    exact quiet_of_pollEach h (by rw [hlive]; rfl)
  | succ left ih =>
    simp only [pollAll.passes]
    split
    · rename_i hd
      exact quiet_of_pollEach h (List.isEmpty_iff.1 hd)
    · rename_i hd
      have hpos : 0 < (pollEach u s s.live).2.length := List.length_pos_iff.2 (by simpa using hd)
      have hlen := length_live_pollEach u s s.live
      refine ih ?_ (by omega)
      rw [pollEach_eq_run]
      exact singleFlight_run u h _

private theorem passes_eq_run (u : Setup) (s : Session) (left : Nat) :
    ∃ ids : List Nat, (pollAll.passes u left s).1 = (run u s (ids.map .poll)).1 := by
  induction left generalizing s with
  | zero => exact ⟨s.live, pollEach_eq_run u s s.live⟩
  | succ left ih =>
    simp only [pollAll.passes]
    split
    · exact ⟨s.live, pollEach_eq_run u s s.live⟩
    · obtain ⟨ids, hids⟩ := ih (pollEach u s s.live).1
      refine ⟨s.live ++ ids, ?_⟩
      rw [hids, pollEach_eq_run, List.map_append, run_append]

/-- Every run can be carried on by polls alone until no poll moves anything. -/
theorem exists_quiet (u : Setup) (es : List Event) :
    ∃ ids : List Nat, Quiet u (after u (es ++ ids.map .poll)) := by
  obtain ⟨ids, hids⟩ := passes_eq_run u (after u es) (after u es).live.length
  refine ⟨ids, ?_⟩
  have hq : Quiet u (pollAll.passes u (after u es).live.length (after u es)).1 :=
    quiet_passes (singleFlight_after u es) (Nat.le_refl _)
  rwa [hids, after, ← run_append] at hq

end LiquidityBook.Session
