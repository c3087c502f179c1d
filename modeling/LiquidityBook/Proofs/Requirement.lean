import LiquidityBook.Error

/-! Requirements that are checked one after the other. A procedure that checks a list of them succeeds exactly where
all are met, and its error reports the first that is not. -/
namespace LiquidityBook

/-- What has to hold of an input, and which errors report that it does not. -/
structure Requirement where
  met : Prop
  reports : Error → Prop

namespace Requirement
variable {α β γ : Type} {r : Requirement} {rs : List Requirement} {e : Error}

/-- The error reports the first of the requirements that is not met. -/
def FirstUnmet : List Requirement → Error → Prop
  | [], _ => False
  | r :: rs, e => (¬ r.met ∧ r.reports e) ∨ (r.met ∧ FirstUnmet rs e)

/-- The step succeeds only if the requirement is met, and fails only if it is not, with an error that says so. -/
structure Checks (x : Except Error α) (r : Requirement) : Prop where
  ok : ∀ a, x = .ok a → r.met
  error : ∀ e, x = .error e → ¬ r.met ∧ r.reports e

/-- The procedure succeeds only if all requirements are met, and otherwise reports the first that is not. -/
structure Decides (x : Except Error α) (rs : List Requirement) : Prop where
  ok : ∀ a, x = .ok a → ∀ r ∈ rs, r.met
  error : ∀ e, x = .error e → FirstUnmet rs e

theorem FirstUnmet.exists_reporting (h : FirstUnmet rs e) : ∃ r ∈ rs, ¬ r.met ∧ r.reports e := by
  induction rs with
  | nil => exact h.elim
  | cons r rs ih =>
    rcases h with hr | ⟨_, h⟩
    · exact ⟨r, List.mem_cons_self .., hr⟩
    · obtain ⟨r', hm, hr⟩ := ih h
      exact ⟨r', List.mem_cons_of_mem _ hm, hr⟩

theorem Decides.ok_iff {x : Except Error α} (h : Decides x rs) : (∃ a, x = .ok a) ↔ ∀ r ∈ rs, r.met := by
  constructor
  · rintro ⟨a, ha⟩
    exact h.ok a ha
  · intro hm
    cases hx : x with
    | ok a => exact ⟨a, rfl⟩
    | error e =>
      obtain ⟨r, hr, hn, _⟩ := (h.error e hx).exists_reporting
      exact absurd (hm r hr) hn

theorem Decides.pure (a : α) : Decides (.ok a) [] := ⟨fun _ _ => nofun, nofun⟩

/-- A step that checks the first requirement, before a procedure that decides on the others. -/
theorem Decides.bind {x : Except Error α} {f : α → Except Error β} (hx : Checks x r)
    (hf : ∀ a, x = .ok a → Decides (f a) rs) : Decides (x >>= f) (r :: rs) := by
  cases x with
  | error e =>
    refine ⟨nofun, fun e' he => ?_⟩
    cases he
    exact .inl (hx.error e rfl)
  | ok a =>
    have ha : Decides (f a) rs := hf a rfl
    refine ⟨fun b hb => List.forall_mem_cons.2 ⟨hx.ok a rfl, ha.ok b hb⟩, ?_⟩
    intro e he
    exact .inr ⟨hx.ok a rfl, ha.error e he⟩

theorem checks_when {p met : Prop} [Decidable p] {reports : Error → Prop} (hm : met ↔ ¬ p) (hr : reports e) :
    Checks (e.when p) ⟨met, reports⟩ where
  ok _ h := hm.2 (Error.when_eq_ok_iff.1 h)
  error e' h := by
    obtain ⟨hp, rfl⟩ := Error.when_eq_error_iff.1 h
    exact ⟨fun hn => hm.1 hn hp, hr⟩

/-- A check of each element checks them all, and reports the first that fails. -/
theorem checks_mapM {f : α → Except Error β} {g : α → γ} {p : γ → Prop} {report : γ → Error}
    (hf : ∀ a, Checks (f a) ⟨p (g a), (· = report (g a))⟩) (as : List α) :
    Checks (as.mapM f) ⟨∀ c ∈ as.map g, p c,
      fun e => ∃ before c after, as.map g = before ++ c :: after ∧ (∀ b ∈ before, p b) ∧ ¬ p c ∧ e = report c⟩ := by
  induction as with
  | nil => exact ⟨fun _ _ => by simp, nofun⟩
  | cons a as ih =>
    rw [List.mapM_cons, List.map_cons]
    constructor
    · intro bs h
      obtain ⟨b, hb, h⟩ := Error.bind_eq_ok_iff.1 h
      obtain ⟨bs', hbs, _⟩ := Error.bind_eq_ok_iff.1 h
      exact List.forall_mem_cons.2 ⟨(hf a).ok b hb, ih.ok bs' hbs⟩
    · intro e h
      rcases Error.bind_eq_error_iff.1 h with h | ⟨b, hb, h⟩
      · obtain ⟨hn, he⟩ := (hf a).error e h
        exact ⟨fun hall => hn (hall _ (List.mem_cons_self ..)), [], g a, as.map g, rfl, nofun, hn, he⟩
      · rcases Error.bind_eq_error_iff.1 h with h | ⟨_, _, h⟩
        · obtain ⟨hn, before, c, after, hs, hp, hc, he⟩ := ih.error e h
          refine ⟨fun hall => hn (List.forall_mem_cons.1 hall).2, g a :: before, c, after, ?_, ?_, hc, he⟩
          · rw [hs, List.cons_append]
          · exact List.forall_mem_cons.2 ⟨(hf a).ok b hb, hp⟩
        · cases h

end Requirement

end LiquidityBook
