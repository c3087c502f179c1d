import LiquidityBook.Proofs.Settings.Merge
import LiquidityBook.Settings.Source

/-! Which environment variables are for a value of the settings, and what the environment gives for it. -/
namespace LiquidityBook

namespace Setting

namespace Step

def written : (path : List String) → List Char
  | [] => []
  | n :: path => n.toList ++ path.flatMap fun m => '.' :: m.toList

private theorem name?_eq_some {cs rest : List Char} {step : Step} (h : name? cs = some (step, rest)) :
    ∃ n, step = .entry n ∧ cs = n.toList ++ rest := by
  simp only [name?, Option.ite_none_left_eq_some, Option.some.injEq, Prod.mk.injEq] at h
  obtain ⟨-, rfl, rfl⟩ := h
  exact ⟨_, rfl, by rw [String.toList_ofList, List.takeWhile_append_dropWhile]⟩

private theorem index?_eq_some {cs rest : List Char} {step : Step} (h : index? cs = some (step, rest)) :
    ∃ i, step = .item i := by
  simp only [index?, Option.bind_eq_bind, Option.bind_eq_some_iff] at h
  obtain ⟨i, -, h⟩ := h
  split at h
  · cases h
    exact ⟨i, rfl⟩
  · cases h

private theorem more?_eq_entries {fuel : Nat} {cs : List Char} {path : List String}
    (h : more? fuel cs = some (path.map .entry)) : cs = path.flatMap fun m => '.' :: m.toList := by
  fun_induction more? fuel cs generalizing path with
  | case1 => cases h
  | case2 =>
    obtain rfl := List.map_eq_nil_iff.1 (Option.some.inj h).symm
    rfl
  | case3 fuel cs ih =>
    simp only [Option.bind_eq_bind, Option.bind_eq_some_iff] at h
    obtain ⟨⟨step, rest⟩, hname, place, hrest, hplace⟩ := h
    obtain ⟨n, rfl, rfl⟩ := name?_eq_some hname
    obtain ⟨m, path, rfl, hm, rfl⟩ := List.map_eq_cons_iff.1 (Option.some.inj hplace).symm
    obtain rfl := Step.entry.inj hm
    rw [ih rest hrest, List.flatMap_cons, List.cons_append]
  | case4 fuel cs ih =>
    simp only [Option.bind_eq_bind, Option.bind_eq_some_iff] at h
    obtain ⟨⟨step, rest⟩, hindex, place, -, hplace⟩ := h
    obtain ⟨i, rfl⟩ := index?_eq_some hindex
    obtain ⟨m, -, -, hm, -⟩ := List.map_eq_cons_iff.1 (Option.some.inj hplace).symm
    cases hm
  | case5 => cases h

theorem exists_ofName_eq_cons (name : String) : ∃ n place, ofName name = .entry n :: place := by
  unfold ofName
  match h : name? name.toList with
  | none => exact ⟨name, [], by simp⟩
  | some (step, rest) =>
    obtain ⟨n, rfl, -⟩ := name?_eq_some h
    cases hrest : more? (rest.length + 1) rest with
    | none => exact ⟨name, [], by simp [hrest]⟩
    | some place => exact ⟨n, place, by simp [hrest]⟩

private theorem toList_eq_written {name : String} {path : List String} (hlen : 2 ≤ path.length)
    (h : ofName name = path.map .entry) : name.toList = written path := by
  -- a name of another form is that of one entry
  have hne : [Step.entry name] ≠ path.map .entry := by
    intro he
    have := congrArg List.length he
    simp at this
    omega
  unfold ofName at h
  match hname : name? name.toList with
  | none => exact absurd (by simpa [hname] using h) hne
  | some (step, rest) =>
    obtain ⟨n, rfl, hcs⟩ := name?_eq_some hname
    cases hrest : more? (rest.length + 1) rest with
    | none => exact absurd (by simpa [hname, hrest] using h) hne
    | some place =>
      have hplace : Step.entry n :: place = path.map .entry := by simpa [hname, hrest] using h
      obtain ⟨m, path, rfl, hm, rfl⟩ := List.map_eq_cons_iff.1 hplace.symm
      obtain rfl := Step.entry.inj hm
      rw [hcs, written, ← more?_eq_entries hrest]

end Step

/-- A value with nothing inside it. -/
def isSingle : Setting → Bool
  | bool _ | integer _ | float _ | text _ => true
  | _ => false

private theorem isSingle_ofVariable (value : String) : (ofVariable value).isSingle := by
  unfold ofVariable
  repeat' split
  all_goals rfl

private theorem values_of_isSingle {value : Setting} (h : value.isSingle) (path : List String) :
    value.values path = if path = [] then [value] else [] := by
  cases path <;> cases value <;> first | rfl | cases h

private theorem valuesAt_of_isSingle {value : Setting} (h : value.isSingle) (place : List Step) (path : List String) :
    value.valuesAt place path = if place = path.map .entry then [value] else [] := by
  induction place generalizing path with
  | nil =>
    rw [valuesAt, values_of_isSingle h]
    cases path <;> simp
  | cons step place ih =>
    cases path with
    | nil => simp [valuesAt]
    | cons n path =>
      cases step with
      | item i => simp [valuesAt]
      | entry m => by_cases hm : m = n <;> simp [valuesAt, hm, ih]

/-- A text that reads as no boolean, no integer and no number. -/
structure IsPlain (value : String) : Prop where
  not_true : String.ofList (value.toList.map Char.toLower) ≠ "true"
  not_false : String.ofList (value.toList.map Char.toLower) ≠ "false"
  not_integer : Digits.readInt64? value.toList = none
  not_float : Binary64.read? value = none

theorem ofVariable_of_isPlain {value : String} (h : IsPlain value) : ofVariable value = text value := by
  unfold ofVariable
  split
  · exact absurd ‹_› h.not_true
  · exact absurd ‹_› h.not_false
  · rw [h.not_integer, h.not_float]

end Setting

namespace Layer
open Setting

/-- Whether the name of a variable is for the end of a path: the prefix, two underscores, and the names of the path, two
underscores or a point between them. Upper and lower case are the same. -/
def isNamed (envPrefix : String) (path : List String) (name : String) : Bool :=
  let lead := (lowerName envPrefix).toList ++ ['_', '_']
  let cs := (lowerName name).toList
  lead.isPrefixOf cs && joinPoints (cs.drop lead.length) == Step.written path

/-- What the variable for the end of a path is set to, the last one counting. -/
def setTo? (envPrefix : String) (path : List String) (env : List (String × String)) : Option String :=
  (env.reverse.find? fun v => isNamed envPrefix path v.1).map (·.2)

/-- A path that is read back from the way it is written. -/
structure IsReadable (path : List String) : Prop where
  two_le : 2 ≤ path.length
  ofName_eq : Step.ofName (String.ofList (Step.written path)) = path.map .entry

variable {envPrefix : String} {path : List String}

private theorem variablePlace?_eq_some_iff (h : IsReadable path) {name : String} :
    variablePlace? envPrefix name = some (path.map .entry) ↔ isNamed envPrefix path name := by
  simp only [variablePlace?, isNamed, Bool.and_eq_true, beq_iff_eq]
  split
  · rename_i hlead
    refine ⟨fun hplace => ⟨hlead, ?_⟩, fun hn => ?_⟩
    · rw [← Step.toList_eq_written h.two_le (Option.some.inj hplace), String.toList_ofList]
    · rw [hn.2, h.ofName_eq]
  · rename_i hlead
    exact ⟨fun hplace => (nomatch hplace), fun hn => absurd hn.1 hlead⟩

/-- The name with the prefix and two underscores in front is that of a variable for the end of a path if the rest is the
path's in lower case. -/
theorem isNamed_append {key : String} (h : joinPoints (lowerName key).toList = Step.written path) :
    isNamed envPrefix path (envPrefix ++ "__" ++ key) := by
  have hname : (lowerName (envPrefix ++ "__" ++ key)).toList =
      ((lowerName envPrefix).toList ++ ['_', '_']) ++ (lowerName key).toList := by
    simp only [lowerName, String.toList_append, List.map_append, String.toList_ofList]
    rfl
  rw [isNamed, hname, List.drop_left, h, Bool.and_eq_true]
  exact ⟨List.isPrefixOf_iff_prefix.2 (List.prefix_append _ _), beq_self_eq_true _⟩

theorem values_ofEnvironment (h : IsReadable path) (env : List (String × String)) :
    (ofEnvironment envPrefix env).values path =
      (env.filter fun v => isNamed envPrefix path v.1).map fun v => ofVariable v.2 := by
  induction env with
  | nil => rfl
  | cons v env ih =>
    obtain ⟨name, value⟩ := v
    cases hp : variablePlace? envPrefix name with
    | none =>
      have hn : ¬ isNamed envPrefix path name := by simp [← variablePlace?_eq_some_iff h, hp]
      have hskip : ofEnvironment envPrefix ((name, value) :: env) = ofEnvironment envPrefix env :=
        List.filterMap_cons_none (by simp [hp])
      rw [hskip, ih, List.filter_cons_of_neg (by exact hn)]
    | some place =>
      have hiff : place = path.map .entry ↔ isNamed envPrefix path name := by
        rw [← variablePlace?_eq_some_iff h, hp, Option.some.injEq]
      have hlay : ofEnvironment envPrefix ((name, value) :: env) =
          (place, ofVariable value) :: ofEnvironment envPrefix env :=
        List.filterMap_cons_some (by simp [hp])
      rw [hlay, values_cons, ih, valuesAt_of_isSingle (isSingle_ofVariable value)]
      by_cases hn : isNamed envPrefix path name
      · rw [if_pos (hiff.2 hn), List.filter_cons_of_pos (by exact hn), List.map_cons, List.singleton_append]
      · rw [if_neg (mt hiff.1 hn), List.filter_cons_of_neg (by exact hn), List.nil_append]

/-- The environment leaves what the last variable for it reads as. -/
theorem getLast?_values_ofEnvironment (h : IsReadable path) (env : List (String × String)) :
    ((ofEnvironment envPrefix env).values path).getLast? = (setTo? envPrefix path env).map ofVariable := by
  rw [values_ofEnvironment h, List.getLast?_map, List.getLast?_filter, setTo?, Option.map_map]
  rfl

private theorem exists_variablePlace?_eq_cons {name : String} {place : List Step}
    (h : variablePlace? envPrefix name = some place) : ∃ n rest, place = .entry n :: rest := by
  simp only [variablePlace?, Option.ite_none_right_eq_some, Option.some.injEq] at h
  rw [← h.2]
  exact Step.exists_ofName_eq_cons _

theorem exists_of_mem_ofEnvironment {env : List (String × String)} {e : List Step × Setting}
    (h : e ∈ ofEnvironment envPrefix env) : (∃ n rest, e.1 = .entry n :: rest) ∧ e.2.isSingle := by
  obtain ⟨⟨name, value⟩, -, he⟩ := List.mem_filterMap.1 h
  obtain ⟨place, hplace, rfl⟩ := Option.map_eq_some_iff.1 he
  exact ⟨exists_variablePlace?_eq_cons hplace, isSingle_ofVariable value⟩

/-- What the environment gives has nothing inside it. -/
theorem isSingle_of_mem_values_ofEnvironment {env : List (String × String)} {x : Setting}
    (h : x ∈ (ofEnvironment envPrefix env).values path) : x.isSingle := by
  obtain ⟨⟨place, value⟩, he, hx⟩ := List.mem_flatMap.1 h
  have hsingle := (exists_of_mem_ofEnvironment he).2
  rw [valuesAt_of_isSingle hsingle] at hx
  split at hx
  · exact List.mem_singleton.1 hx ▸ hsingle
  · cases hx

end Layer

end LiquidityBook
