import LiquidityBook.Proofs.Registry.Listing

/-! Names resolved in a registry. Addresses and symbols are unique among themselves, but a symbol of one token may be
the address of another: the name then leads to the address, and the symbol's own token cannot be reached by it. -/
namespace LiquidityBook

/-- The token has this name as its address, or as its symbol in any case. -/
def Token.Named (t : Token) (name : String) : Prop := t.address = name ∨ SameSymbol t.symbol name

private theorem SameSymbol.refl (a : String) : SameSymbol a a := foldSymbol_eq_iff.1 rfl

namespace TokenRegistry

/-- No token has the address of another one for its symbol, in any case. -/
def Separate (ts : List Token) : Prop := ∀ t ∈ ts, ∀ u ∈ ts, SameSymbol t.symbol u.address → t = u

instance {ts : List Token} : Decidable (Separate ts) := inferInstanceAs (Decidable (∀ t ∈ ts, ∀ u ∈ ts, _ → _))

/-- How the names of the listed tokens are resolved. Addresses go before symbols. -/
structure Resolves (r : TokenRegistry) (ts : List Token) : Prop where
  ok_iff : ∀ name t, r.resolve name = .ok t ↔
    t ∈ ts ∧ (t.address = name ∨ SameSymbol t.symbol name ∧ ∀ u ∈ ts, u.address ≠ name)
  error_iff : ∀ name e, r.resolve name = .error e ↔ (∀ t ∈ ts, ¬ t.Named name) ∧ e = .tokenNotRegistered name
  address : ∀ t ∈ ts, r.resolve t.address = .ok t
  symbol : ∀ t ∈ ts, ∀ name, SameSymbol t.symbol name → (r.resolve name = .ok t ↔ ∀ u ∈ ts, u.address = name → u = t)
  /-- Where a name belongs to one token only, it leads there. -/
  only : ∀ name, ∀ t ∈ ts, t.Named name → (∀ u ∈ ts, u.Named name → u = t) → r.resolve name = .ok t

variable {r : TokenRegistry} {t : Token} {ts : List Token} {name : String}

private theorem resolve_eq_ok_iff : r.resolve name = .ok t ↔
    r.find? name = some t ∨ r.find? name = none ∧ r.bySymbol? name = some t := by
  unfold resolve
  cases r.find? name <;> cases r.bySymbol? name <;> simp

theorem resolve_eq_error_iff {e : Error} : r.resolve name = .error e ↔
    (r.find? name = none ∧ r.bySymbol? name = none) ∧ e = .tokenNotRegistered name := by
  unfold resolve
  cases r.find? name <;> cases r.bySymbol? name <;> simp [eq_comm]

private theorem Holds.eq_of_named {u : Token} (h : Holds r ts) (ht : t ∈ ts) (hu : u ∈ ts) (htn : t.Named name)
    (hun : u.Named name) :
    t = u ∨ SameSymbol t.symbol u.address ∨ SameSymbol u.symbol t.address := by
  rcases htn with rfl | hts <;> rcases hun with hua | hus
  · exact .inl (Except.ok.inj (((h.get_ok _ t).2 ⟨ht, rfl⟩).symm.trans ((h.get_ok _ u).2 ⟨hu, hua⟩)))
  · exact .inr (.inr hus)
  · exact .inr (.inl (hua ▸ hts))
  · exact .inl (Option.some.inj (((h.bySymbol_some _ t).2 ⟨ht, hts⟩).symm.trans ((h.bySymbol_some _ u).2 ⟨hu, hus⟩)))

/-- Names are unambiguous exactly where no symbol is an address of another token. -/
theorem Holds.separate_iff (h : Holds r ts) :
    Separate ts ↔ ∀ name, ∀ t ∈ ts, ∀ u ∈ ts, t.Named name → u.Named name → t = u := by
  constructor
  · intro hs name t ht u hu htn hun
    rcases h.eq_of_named ht hu htn hun with heq | hsym | hsym
    · exact heq
    · exact hs t ht u hu hsym
    · exact (hs u hu t ht hsym).symm
  · intro hn t ht u hu hsym
    exact hn u.address t ht u hu (.inr hsym) (.inl rfl)

private theorem Holds.resolves (h : Holds r ts) : Resolves r ts := by
  have hfind (name : String) (t : Token) : r.find? name = some t ↔ t ∈ ts ∧ t.address = name := by
    rw [← get_eq_ok_iff, h.get_ok]
  have hnone (name : String) : r.find? name = none ↔ ∀ t ∈ ts, t.address ≠ name := by
    simp [Option.eq_none_iff_forall_ne_some, hfind]
  have hok (name : String) (t : Token) : r.resolve name = .ok t ↔
      t ∈ ts ∧ (t.address = name ∨ SameSymbol t.symbol name ∧ ∀ u ∈ ts, u.address ≠ name) := by
    rw [resolve_eq_ok_iff, hfind, hnone, h.bySymbol_some]
    tauto
  have hsymbol : ∀ t ∈ ts, ∀ name, SameSymbol t.symbol name →
      (r.resolve name = .ok t ↔ ∀ u ∈ ts, u.address = name → u = t) := by
    intro t ht name hsym
    rw [hok]
    constructor
    · rintro ⟨_, rfl | ⟨_, hfree⟩⟩ u hu hua
      · exact Option.some.inj (((hfind _ u).2 ⟨hu, hua⟩).symm.trans ((hfind _ t).2 ⟨ht, rfl⟩))
      · exact absurd hua (hfree u hu)
    · intro hsole
      refine ⟨ht, ?_⟩
      by_cases hta : t.address = name
      · exact .inl hta
      · exact .inr ⟨hsym, fun u hu hua => hta (hsole u hu hua ▸ hua)⟩
  refine ⟨hok, ?_, fun t ht => (hok _ t).2 ⟨ht, .inl rfl⟩, hsymbol, ?_⟩
  · intro name e
    rw [resolve_eq_error_iff, hnone, h.bySymbol_none, ← forall₂_and]
    simp only [Token.Named, not_or]
  · rintro name t ht (hta | hsym) hsole
    · exact (hok name t).2 ⟨ht, .inl hta⟩
    · exact (hsymbol t ht name hsym).2 fun u hu hua => hsole u hu (.inl hua)

/-- A list is taken in which the symbol of one token is the address of another. The symbol leads to the other token. -/
theorem address_hides_symbol :
    let shade : Token := ⟨"secret1shade", "h1", "SHD", 8⟩
    let hidden : Token := ⟨"secret1hidden", "h2", "secret1shade", 6⟩
    shade ≠ hidden ∧ shade.Named "secret1shade" ∧ hidden.Named "secret1shade" ∧
      ∃ r, ofList [shade, hidden] = .ok r ∧ r.resolve hidden.symbol = .ok shade := by
  intro shade hidden
  have htaken : [shade, hidden].Pairwise Compatible := by decide +kernel
  obtain ⟨r, hr⟩ := ofList_isOk_iff.2 htaken
  have haddress := (holds_of_ofList hr).resolves.address shade List.mem_cons_self
  exact ⟨by decide, .inl rfl, .inr (SameSymbol.refl _), r, hr, haddress⟩

/-- Every name of a listed token leads to a listed token of that name, an address to its own one and a symbol to its own
one unless it is an address as well. That each name leads to the one token which has it holds exactly where no symbol
is the address of another token. -/
theorem names_resolved {ts : List Token} {r : TokenRegistry} (h : ofList ts = .ok r) :
    Resolves r ts ∧
    (Separate ts ↔ ∀ name, ∀ t ∈ ts, ∀ u ∈ ts, t.Named name → u.Named name → t = u) ∧
    (Separate ts ↔ ∀ t ∈ ts, ∀ name, t.Named name → r.resolve name = .ok t) := by
  have hr := (holds_of_ofList h).resolves
  have hone := (holds_of_ofList h).separate_iff
  refine ⟨hr, hone, fun hs t ht name htn => ?_, fun hall t ht u hu hsym => ?_⟩
  · exact hr.only name t ht htn fun u hu hun => hone.1 hs name u hu t ht hun htn
  · exact Except.ok.inj ((hall t ht u.address (.inr hsym)).symm.trans (hr.address u hu))

/-- Two tokens with names apart, resolved by a symbol in another case. -/
theorem names_resolved_capitals :
    let shade : Token := ⟨"secret1shade", "h1", "shd", 8⟩
    let silk : Token := ⟨"secret1silk", "h2", "SILK", 6⟩
    ∃ r, ofList [shade, silk] = .ok r ∧ r.resolve "SHD" = .ok shade ∧ r.resolve "secret1silk" = .ok silk := by
  intro shade silk
  have htaken : [shade, silk].Pairwise Compatible := by decide +kernel
  have hseparate : Separate [shade, silk] := by decide +kernel
  obtain ⟨r, hr⟩ := ofList_isOk_iff.2 htaken
  obtain ⟨hres, _, hall⟩ := names_resolved hr
  have hshd : shade.Named "SHD" := .inr (by decide +kernel)
  exact ⟨r, hr, hall.1 hseparate shade (by simp) _ hshd, hres.address silk (by simp)⟩

end TokenRegistry

end LiquidityBook
