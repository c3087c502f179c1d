import LiquidityBook.Token
import LiquidityBook.Table

/-! The tokens a client knows, found by address or by symbol. Symbols are compared without regard
to ASCII letter case. -/
namespace LiquidityBook

/-- A symbol with its ASCII letters lowered. -/
def foldSymbol (symbol : String) : String := String.ofList (symbol.toList.map Char.toLower)

/-- Tokens by their addresses, and the addresses by the lowered symbols. The second table leads to
every token of the first, and nowhere else. -/
structure TokenRegistry where
  entries : Table String Token
  index : Table String String
  entries_nodup : (entries.map (·.1)).Nodup
  address_eq : ∀ {address t}, entries.find? address = some t → t.address = address
  index_iff : ∀ {symbol address}, index.find? symbol = some address ↔
    ∃ t, entries.find? address = some t ∧ foldSymbol t.symbol = symbol

namespace TokenRegistry

private theorem empty_index {symbol address : String} : Table.find? [] symbol = some address ↔
    ∃ t : Token, Table.find? [] address = some t ∧ foldSymbol t.symbol = symbol := by
  simp [Table.find?_nil]

def empty : TokenRegistry := ⟨[], [], .nil, nofun, empty_index⟩

instance : Inhabited TokenRegistry := ⟨empty⟩

def find? (r : TokenRegistry) (address : String) : Option Token := r.entries.find? address

def bySymbol? (r : TokenRegistry) (symbol : String) : Option Token :=
  (r.index.find? (foldSymbol symbol)).bind r.entries.find?

private theorem insert_address {r : TokenRegistry} {t u : Token} {address : String}
    (h : (r.entries.insert t.address t).find? address = some u) : u.address = address := by
  by_cases ha : t.address = address
  · subst ha
    rw [Table.find?_insert_self, Option.some.injEq] at h
    rw [h]
  · rw [Table.find?_insert_of_ne _ _ ha] at h
    exact r.address_eq h

private theorem insert_index {r : TokenRegistry} {t : Token} (ha : r.entries.find? t.address = none)
    (hs : r.index.find? (foldSymbol t.symbol) = none) {symbol address : String} :
    (r.index.insert (foldSymbol t.symbol) t.address).find? symbol = some address ↔
      ∃ u, (r.entries.insert t.address t).find? address = some u ∧ foldSymbol u.symbol = symbol := by
  by_cases hsym : foldSymbol t.symbol = symbol
  · subst hsym
    rw [Table.find?_insert_self, Option.some.injEq]
    by_cases hadr : t.address = address
    · subst hadr
      simp [Table.find?_insert_self]
    · rw [Table.find?_insert_of_ne _ _ hadr, ← r.index_iff, hs]
      exact iff_of_false hadr (by simp)
  · rw [Table.find?_insert_of_ne _ _ hsym, r.index_iff]
    by_cases hadr : t.address = address
    · subst hadr
      rw [ha, Table.find?_insert_self]
      exact iff_of_false (by simp) (by simpa using hsym)
    · rw [Table.find?_insert_of_ne _ _ hadr]

/-- Adds a token, unless its address or its symbol is taken. -/
def insert (r : TokenRegistry) (t : Token) : Except Error TokenRegistry :=
  match ha : r.entries.find? t.address with
  | some _ => .error (.schemaViolation (.addressRepeated t.address))
  | none =>
    match hs : r.index.find? (foldSymbol t.symbol) with
    | some holder => .error (.schemaViolation (.symbolRepeated t.symbol holder t.address))
    | none => .ok {
        entries := r.entries.insert t.address t
        index := r.index.insert (foldSymbol t.symbol) t.address
        entries_nodup := Table.nodup_insert r.entries_nodup ..
        address_eq := insert_address
        index_iff := insert_index ha hs }

def ofList (tokens : List Token) : Except Error TokenRegistry := tokens.foldlM insert empty

def get (r : TokenRegistry) (address : String) : Except Error Token :=
  match r.find? address with
  | some t => .ok t
  | none => .error (.tokenNotRegistered address)

/-- Finds a token by its address, or else by its symbol. -/
def resolve (r : TokenRegistry) (name : String) : Except Error Token :=
  match (r.find? name).or (r.bySymbol? name) with
  | some t => .ok t
  | none => .error (.tokenNotRegistered name)

def tokens (r : TokenRegistry) : List Token := r.entries.map (·.2)

def size (r : TokenRegistry) : Nat := r.entries.length

def isEmpty (r : TokenRegistry) : Bool := r.entries.isEmpty

theorem get_eq_ok_iff {r : TokenRegistry} {address : String} {t : Token} :
    r.get address = .ok t ↔ r.find? address = some t := by
  unfold get
  cases r.find? address <;> simp

theorem get_eq_error_iff {r : TokenRegistry} {address : String} {e : Error} :
    r.get address = .error e ↔ r.find? address = none ∧ e = .tokenNotRegistered address := by
  unfold get
  cases r.find? address <;> simp [eq_comm]

end TokenRegistry

end LiquidityBook
