import LiquidityBook.Registry
import Mathlib.Data.List.Forall2
import Mathlib.Data.List.Induction
import Mathlib.Data.List.Nodup

/-! What a registry makes of a list of tokens. It takes a list where no two tokens share an address or a symbol, and
reports the first token of another one that does. A list that it takes can be read back from it in each of its ways. -/
namespace LiquidityBook

/-- The same character, letters of the ASCII alphabet in either case. -/
def SameLetter (c d : Char) : Prop :=
  c = d ∨ (c.isUpper ∧ d.toNat = c.toNat + 32) ∨ (d.isUpper ∧ c.toNat = d.toNat + 32)

/-- The same symbol, but for the case of ASCII letters. -/
def SameSymbol (a b : String) : Prop := List.Forall₂ SameLetter a.toList b.toList

private theorem isUpper_iff {c : Char} : c.isUpper ↔ 65 ≤ c.toNat ∧ c.toNat ≤ 90 := decide_eq_true_iff

private theorem toNat_toLower (c : Char) : c.toLower.toNat = if c.isUpper then c.toNat + 32 else c.toNat := by
  unfold Char.toLower
  split
  · rename_i h
    have hc : 65 ≤ c.toNat ∧ c.toNat ≤ 90 := h
    rw [if_pos (isUpper_iff.2 hc)]
    change (c.toNat + 32) % 2 ^ 32 = c.toNat + 32
    exact Nat.mod_eq_of_lt (by omega)
  · rename_i h
    rw [if_neg (mt isUpper_iff.1 h)]

private theorem toLower_eq_iff {c d : Char} : c.toLower = d.toLower ↔ SameLetter c d := by
  rw [← Char.toNat_inj, toNat_toLower, toNat_toLower, SameLetter, ← Char.toNat_inj]
  simp only [isUpper_iff]
  split <;> split <;> omega

theorem foldSymbol_eq_iff {a b : String} : foldSymbol a = foldSymbol b ↔ SameSymbol a b := by
  rw [foldSymbol, foldSymbol, String.ofList_inj, ← List.forall₂_eq_eq_eq, List.forall₂_map_left_iff,
    List.forall₂_map_right_iff]
  simp only [toLower_eq_iff]
  rfl

instance {a b : String} : Decidable (SameSymbol a b) := decidable_of_iff _ foldSymbol_eq_iff

namespace TokenRegistry

def Compatible (t u : Token) : Prop := t.address ≠ u.address ∧ ¬ SameSymbol t.symbol u.symbol

instance : DecidableRel Compatible := fun t u => inferInstanceAs (Decidable (t.address ≠ u.address ∧ _))

/-- The error for a token that is incompatible with an earlier one. Only where no address is repeated is it about the
symbol, and then it names the earlier holder. -/
inductive Blocked (earlier : List Token) (t : Token) : Error → Prop where
  | address {u} (hu : u ∈ earlier) (h : u.address = t.address) :
      Blocked earlier t (.schemaViolation (.addressRepeated t.address))
  | symbol {u} (ha : ∀ v ∈ earlier, v.address ≠ t.address) (hu : u ∈ earlier) (h : SameSymbol u.symbol t.symbol) :
      Blocked earlier t (.schemaViolation (.symbolRepeated t.symbol u.address t.address))

/-- A registry has the tokens of a list, and each of its operations answers by that list alone. -/
structure Holds (r : TokenRegistry) (ts : List Token) : Prop where
  size_eq : r.size = ts.length
  isEmpty_iff : r.isEmpty ↔ ts = []
  nodup : r.tokens.Nodup
  mem_iff : ∀ t, t ∈ r.tokens ↔ t ∈ ts
  get_ok : ∀ address t, r.get address = .ok t ↔ t ∈ ts ∧ t.address = address
  get_error : ∀ address e, r.get address = .error e ↔
    (∀ t ∈ ts, t.address ≠ address) ∧ e = .tokenNotRegistered address
  bySymbol_some : ∀ symbol t, r.bySymbol? symbol = some t ↔ t ∈ ts ∧ SameSymbol t.symbol symbol
  bySymbol_none : ∀ symbol, r.bySymbol? symbol = none ↔ ∀ t ∈ ts, ¬ SameSymbol t.symbol symbol
  /-- The index leads to tokens only, and to each by its own symbol. -/
  index_iff : ∀ symbol address, r.index.find? symbol = some address ↔
    ∃ t, r.get address = .ok t ∧ foldSymbol t.symbol = symbol

variable {r r' : TokenRegistry} {t : Token} {ts : List Token} {e : Error}

private theorem find?_eq_some_iff {address : String} :
    r.find? address = some t ↔ t ∈ r.tokens ∧ t.address = address := by
  constructor
  · intro h
    exact ⟨List.mem_map.2 ⟨_, Table.mem_of_find?_eq_some h, rfl⟩, r.address_eq h⟩
  · rintro ⟨ht, rfl⟩
    obtain ⟨⟨address, u⟩, hu, rfl⟩ := List.mem_map.1 ht
    have hfind := Table.find?_eq_some_of_mem r.entries_nodup hu
    rw [r.address_eq hfind]
    exact hfind

private theorem find?_eq_none_iff {address : String} :
    r.find? address = none ↔ ∀ t ∈ r.tokens, t.address ≠ address := by
  simp [Option.eq_none_iff_forall_ne_some, find?_eq_some_iff]

private theorem index_eq_some_iff {symbol address : String} : r.index.find? (foldSymbol symbol) = some address ↔
    ∃ t ∈ r.tokens, t.address = address ∧ SameSymbol t.symbol symbol := by
  simp only [r.index_iff, foldSymbol_eq_iff, ← and_assoc, ← find?_eq_some_iff]
  rfl

private theorem bySymbol?_eq_some_iff {symbol : String} :
    r.bySymbol? symbol = some t ↔ t ∈ r.tokens ∧ SameSymbol t.symbol symbol := by
  rw [bySymbol?, Option.bind_eq_some_iff]
  constructor
  · rintro ⟨address, hindex, hfind⟩
    obtain ⟨u, hu, hsym⟩ := r.index_iff.1 hindex
    obtain rfl : u = t := Option.some.inj (hu.symm.trans hfind)
    exact ⟨(find?_eq_some_iff.1 hfind).1, foldSymbol_eq_iff.1 hsym⟩
  · rintro ⟨ht, hsym⟩
    exact ⟨t.address, index_eq_some_iff.2 ⟨t, ht, rfl, hsym⟩, find?_eq_some_iff.2 ⟨ht, rfl⟩⟩

private theorem bySymbol?_eq_none_iff {symbol : String} :
    r.bySymbol? symbol = none ↔ ∀ t ∈ r.tokens, ¬ SameSymbol t.symbol symbol := by
  simp [Option.eq_none_iff_forall_ne_some, bySymbol?_eq_some_iff]

/-- What adding one token does: a compatible one comes to the others, and any other is reported. -/
inductive Inserts (r : TokenRegistry) (t : Token) : Except Error TokenRegistry → Prop where
  | added {next : TokenRegistry} (hnew : ∀ u ∈ r.tokens, Compatible u t) (htokens : next.tokens = t :: r.tokens) :
      Inserts r t (.ok next)
  | refused {cause : Error} (h : Blocked r.tokens t cause) : Inserts r t (.error cause)

private theorem insert_inserts (r : TokenRegistry) (t : Token) : Inserts r t (r.insert t) := by
  unfold insert
  split
  · rename_i u hu
    obtain ⟨hmem, haddress⟩ := find?_eq_some_iff.1 hu
    exact .refused (.address hmem haddress)
  · rename_i ha
    have hfree := find?_eq_none_iff.1 ha
    split
    · rename_i holder hs
      obtain ⟨u, hu, rfl, hsym⟩ := index_eq_some_iff.1 hs
      exact .refused (.symbol hfree hu hsym)
    · rename_i hs
      refine .added ?_ (congrArg (t :: List.map _ ·) (Table.erase_eq_self ha))
      intro u hu
      refine ⟨hfree u hu, fun hsym => ?_⟩
      rw [index_eq_some_iff.2 ⟨u, hu, rfl, hsym⟩] at hs
      cases hs

private theorem Blocked.not_compatible {earlier : List Token} (h : Blocked earlier t e) :
    ¬ ∀ u ∈ earlier, Compatible u t := by
  intro hall
  cases h with
  | address hu h => exact (hall _ hu).1 h
  | symbol _ hu h => exact (hall _ hu).2 h

private theorem Blocked.of_mem_iff {a b : List Token} (hm : ∀ u, u ∈ a ↔ u ∈ b) (h : Blocked a t e) :
    Blocked b t e := by
  cases h with
  | address hu h => exact .address ((hm _).1 hu) h
  | symbol ha hu h => exact .symbol (fun v hv => ha v ((hm v).2 hv)) ((hm _).1 hu) h

private theorem Blocked.unique {e' : Error} (h : Blocked r.tokens t e) (h' : Blocked r.tokens t e') : e = e' := by
  cases h with
  | address hu h =>
    cases h' with
    | address => rfl
    | symbol ha => exact absurd h (ha _ hu)
  | symbol ha hu h =>
    cases h' with
    | address hv h' => exact absurd h' (ha _ hv)
    | symbol _ hv h' =>
      have hsame := (bySymbol?_eq_some_iff.2 ⟨hu, h⟩).symm.trans (bySymbol?_eq_some_iff.2 ⟨hv, h'⟩)
      rw [Option.some.inj hsame]

private theorem insert_eq_error_iff : r.insert t = .error e ↔ Blocked r.tokens t e := by
  constructor
  · intro h
    cases h ▸ insert_inserts r t with
    | refused hb => exact hb
  · intro hb
    cases hi : r.insert t with
    | ok next =>
      cases hi ▸ insert_inserts r t with
      | added hnew => exact absurd hnew hb.not_compatible
    | error cause =>
      cases hi ▸ insert_inserts r t with
      | refused hb' => rw [hb'.unique hb]

private theorem insert_isOk_iff : (∃ next, r.insert t = .ok next) ↔ ∀ u ∈ r.tokens, Compatible u t := by
  constructor
  · rintro ⟨next, h⟩
    cases h ▸ insert_inserts r t with
    | added hnew => exact hnew
  · intro hnew
    cases hi : r.insert t with
    | ok next => exact ⟨next, rfl⟩
    | error cause => exact absurd hnew (insert_eq_error_iff.1 hi).not_compatible

private theorem tokens_of_insert (h : r.insert t = .ok r') : r'.tokens = t :: r.tokens := by
  cases h ▸ insert_inserts r t with
  | added _ htokens => exact htokens

private theorem ofList_concat (ts : List Token) (t : Token) : ofList (ts ++ [t]) = (ofList ts).bind (insert · t) := by
  rw [ofList, List.foldlM_append]
  change (ofList ts >>= fun r => r.insert t >>= pure) = _
  simp only [bind_pure]
  rfl

/-- A registry made of a list has its tokens, the last one first. -/
theorem tokens_of_ofList (h : ofList ts = .ok r) : r.tokens = ts.reverse := by
  induction ts using List.reverseRecOn generalizing r with
  | nil =>
    cases h
    rfl
  | append_singleton ts t ih =>
    rw [ofList_concat] at h
    obtain ⟨before, hbefore, hinsert⟩ := Error.bind_eq_ok_iff.1 h
    rw [tokens_of_insert hinsert, ih hbefore, List.reverse_concat]

private theorem mem_tokens_iff (h : ofList ts = .ok r) (t : Token) : t ∈ r.tokens ↔ t ∈ ts := by
  rw [tokens_of_ofList h, List.mem_reverse]

private theorem pairwise_concat :
    (ts ++ [t]).Pairwise Compatible ↔ ts.Pairwise Compatible ∧ ∀ u ∈ ts, Compatible u t := by
  simp [List.pairwise_append]

theorem ofList_isOk_iff : (∃ r, ofList ts = .ok r) ↔ ts.Pairwise Compatible := by
  induction ts using List.reverseRecOn with
  | nil => exact iff_of_true ⟨empty, rfl⟩ .nil
  | append_singleton ts t ih =>
    rw [pairwise_concat, ← ih, ofList_concat]
    cases hts : ofList ts with
    | error e => exact iff_of_false nofun nofun
    | ok r =>
      simp only [← mem_tokens_iff hts, ← insert_isOk_iff]
      exact ⟨fun h => ⟨⟨r, rfl⟩, h⟩, fun h => h.2⟩

/-- The error of a list is that of the first token which is incompatible with an earlier one. -/
theorem ofList_eq_error_iff : ofList ts = .error e ↔
    ∃ before t after, ts = before ++ t :: after ∧ before.Pairwise Compatible ∧ Blocked before t e := by
  rw [ofList, Error.foldlM_eq_error_iff]
  constructor
  · rintro ⟨before, t, after, r, hts, hr, herr⟩
    have hmem := mem_tokens_iff hr
    exact ⟨before, t, after, hts, ofList_isOk_iff.1 ⟨r, hr⟩, (insert_eq_error_iff.1 herr).of_mem_iff hmem⟩
  · rintro ⟨before, t, after, hts, hp, hb⟩
    obtain ⟨r, hr⟩ := ofList_isOk_iff.2 hp
    have hmem := mem_tokens_iff hr
    exact ⟨before, t, after, r, hts, hr, insert_eq_error_iff.2 (hb.of_mem_iff fun u => (hmem u).symm)⟩

theorem holds_of_ofList (h : ofList ts = .ok r) : Holds r ts := by
  have hmem := mem_tokens_iff h
  have hsize : r.size = ts.length := by
    rw [← List.length_reverse, ← tokens_of_ofList h]
    exact (List.length_map _).symm
  have hnodup : ts.Nodup := (ofList_isOk_iff.1 ⟨r, h⟩).imp fun {t u} hc heq => hc.1 (congrArg Token.address heq)
  refine ⟨hsize, ?_, tokens_of_ofList h ▸ List.nodup_reverse.2 hnodup, hmem, ?_, ?_, ?_, ?_, ?_⟩
  · rw [← List.length_eq_zero_iff, ← hsize, isEmpty, List.isEmpty_iff_length_eq_zero]
    rfl
  · intro address t
    rw [get_eq_ok_iff, find?_eq_some_iff, hmem]
  · intro address e
    simp only [get_eq_error_iff, find?_eq_none_iff, hmem]
  · intro symbol t
    rw [bySymbol?_eq_some_iff, hmem]
  · intro symbol
    simp only [bySymbol?_eq_none_iff, hmem]
  · intro symbol address
    simp only [get_eq_ok_iff]
    exact r.index_iff

/-- A list of tokens makes a registry where its addresses and its symbols are distinct, and such a registry has the
list's tokens under their addresses and symbols. Any other list fails at the first token that repeats one of them. -/
theorem list_represented (ts : List Token) :
    ((∃ r, ofList ts = .ok r) ↔
      (ts.map Token.address).Nodup ∧ ts.Pairwise fun t u => ¬ SameSymbol t.symbol u.symbol) ∧
    (∀ e, ofList ts = .error e ↔ ∃ before t after, ts = before ++ t :: after ∧
      ((before.map Token.address).Nodup ∧ before.Pairwise fun t u => ¬ SameSymbol t.symbol u.symbol) ∧
      Blocked before t e) ∧
    ∀ r, ofList ts = .ok r → Holds r ts := by
  have hpair (l : List Token) : l.Pairwise Compatible ↔
      (l.map Token.address).Nodup ∧ l.Pairwise fun t u => ¬ SameSymbol t.symbol u.symbol := by
    rw [List.Nodup, List.pairwise_map]
    exact List.pairwise_and_iff
  simp only [← hpair]
  exact ⟨ofList_isOk_iff, fun e => ofList_eq_error_iff, fun r h => holds_of_ofList h⟩

/-- Two tokens are taken, and a third one with the symbol of the first in capitals is not. -/
theorem list_represented_symbol_taken :
    let silk : Token := ⟨"secret1first", "h1", "silk", 6⟩
    let stkd : Token := ⟨"secret1second", "h2", "stkd-SCRT", 6⟩
    let other : Token := ⟨"secret1third", "h3", "SILK", 8⟩
    (∃ r, ofList [silk, stkd] = .ok r ∧ Holds r [silk, stkd]) ∧
      ofList [silk, stkd, other] =
        .error (.schemaViolation (.symbolRepeated "SILK" "secret1first" "secret1third")) := by
  intro silk stkd other
  have hdistinct : ([silk, stkd].map Token.address).Nodup ∧
      [silk, stkd].Pairwise fun t u => ¬ SameSymbol t.symbol u.symbol := by decide +kernel
  obtain ⟨htaken, _, hholds⟩ := list_represented [silk, stkd]
  obtain ⟨r, hr⟩ := htaken.2 hdistinct
  refine ⟨⟨r, hr, hholds r hr⟩, ((list_represented _).2.1 _).2 ⟨[silk, stkd], other, [], rfl, hdistinct, ?_⟩⟩
  exact .symbol (u := silk) (by decide +kernel) List.mem_cons_self (by decide +kernel)

end TokenRegistry

end LiquidityBook
