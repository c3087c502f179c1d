import LiquidityBook.Json.Basic
import LiquidityBook.Uint

/-! Reading typed values out of JSON. A record is an object with each known member once, or an
array of exactly its fields in order; members that are not known are passed over. What a case holds
is such a record in a text; in a value that was kept of a text it has to be an object. -/
namespace LiquidityBook.Json

/-- What a reader reads: a text, or a value that was kept of one. -/
inductive Form where
  | text
  | value

def asText? : Json → Option String
  | string s => s
  | _ => none

def asBool? : Json → Option Bool
  | bool b => some b
  | _ => none

def asInt? (low high : Int) : Json → Option Int
  | number (.integer n) => if low ≤ n ∧ n ≤ high then some n else none
  | _ => none

def asUInt8? (j : Json) : Option UInt8 := (asInt? 0 (2 ^ 8 - 1) j).map (UInt8.ofNat ·.toNat)

def asUInt16? (j : Json) : Option UInt16 := (asInt? 0 (2 ^ 16 - 1) j).map (UInt16.ofNat ·.toNat)

def asUInt32? (j : Json) : Option UInt32 := (asInt? 0 (2 ^ 32 - 1) j).map (UInt32.ofNat ·.toNat)

def asUInt64? (j : Json) : Option UInt64 := (asInt? 0 (2 ^ 64 - 1) j).map (UInt64.ofNat ·.toNat)

def asInt32? (j : Json) : Option Int32 := (asInt? (-2 ^ 31) (2 ^ 31 - 1) j).map Int32.ofInt

def asUint? (bits : Nat) : Json → Option (Uint bits)
  | number (.integer n) => if 0 ≤ n then Uint.ofNat? bits n.toNat else none
  | _ => none

def asList? {α : Type} (f : Json → Option α) : Json → Option (List α)
  | array items => items.mapM f
  | _ => none

/-- The members of these names, as far as they are there. -/
def lookups? (names : List String) (members : List (Option String × Json)) : Option (List (Option Json)) :=
  if members.all (·.1.isSome) then
    names.mapM fun name =>
      match members.filter (·.1 = some name) with
      | [] => some none
      | [(_, j)] => some (some j)
      | _ => none
  else none

def fields? (names : List String) : Json → Option (List (Option Json))
  | object members => lookups? names members
  | array items => if items.length = names.length then some (items.map some) else none
  | _ => none

/-- The fields of what a case holds. -/
def body? : Form → (names : List String) → Json → Option (List (Option Json))
  | .text, names, j => j.fields? names
  | .value, names, object members => lookups? names members
  | .value, _, _ => none

/-- The fields of a record whose later fields an array may leave out. -/
def leadingFields? (names : List String) : Json → Option (List (Option Json))
  | object members => lookups? names members
  | array items =>
    if items.length ≤ names.length then
      some (items.map some ++ List.replicate (names.length - items.length) none)
    else none
  | _ => none

def required {α : Type} (f : Json → Option α) (field : Option Json) : Option α := field.bind f

def nullable {α : Type} (f : Json → Option α) : Json → Option (Option α)
  | null => some none
  | j => (f j).map some

/-- A field that may be missing or `null`. -/
def optional {α : Type} (f : Json → Option α) : Option Json → Option (Option α)
  | none => some none
  | some j => nullable f j

/-- A field with a value for when it is missing. -/
def defaulted {α : Type} (f : Json → Option α) (value : α) : Option Json → Option α
  | none => some value
  | some j => f j

/-- The case and the body of a choice: an object with a single member. -/
def case? : Json → Option (String × Json)
  | object [(some name, body)] => some (name, body)
  | _ => none

@[simp] theorem asText?_text (s : String) : asText? (text s) = some s := by
  rw [text, asText?]

@[simp] theorem asBool?_bool (b : Bool) : asBool? (bool b) = some b := rfl

private theorem asInt?_int {low high n : Int} (hl : low ≤ n) (hh : n ≤ high) : asInt? low high (int n) = some n :=
  if_pos ⟨hl, hh⟩

private theorem asInt?_nat {high n : Nat} (h : n ≤ high) : asInt? 0 high (nat n) = some (n : Int) :=
  asInt?_int (Int.natCast_nonneg n) (Int.ofNat_le.2 h)

@[simp] theorem asUInt8?_nat (n : UInt8) : asUInt8? (nat n.toNat) = some n := by
  have h : asInt? 0 (2 ^ 8 - 1) (nat n.toNat) = some (n.toNat : Int) := asInt?_nat (Nat.le_pred_of_lt n.toNat_lt)
  rw [asUInt8?, h]
  simp

@[simp] theorem asUInt16?_nat (n : UInt16) : asUInt16? (nat n.toNat) = some n := by
  have h : asInt? 0 (2 ^ 16 - 1) (nat n.toNat) = some (n.toNat : Int) := asInt?_nat (Nat.le_pred_of_lt n.toNat_lt)
  rw [asUInt16?, h]
  simp

@[simp] theorem asUInt16?_ofUInt16 (n : UInt16) : asUInt16? (ofUInt16 n) = some n := asUInt16?_nat n

@[simp] theorem asUInt32?_ofUInt32 (n : UInt32) : asUInt32? (ofUInt32 n) = some n := by
  have h : asInt? 0 (2 ^ 32 - 1) (nat n.toNat) = some (n.toNat : Int) := asInt?_nat (Nat.le_pred_of_lt n.toNat_lt)
  rw [asUInt32?, ofUInt32, h]
  simp

@[simp] theorem asUInt64?_ofUInt64 (n : UInt64) : asUInt64? (ofUInt64 n) = some n := by
  have h : asInt? 0 (2 ^ 64 - 1) (nat n.toNat) = some (n.toNat : Int) := asInt?_nat (Nat.le_pred_of_lt n.toNat_lt)
  rw [asUInt64?, ofUInt64, h]
  simp

@[simp] theorem asInt32?_ofInt32 (n : Int32) : asInt32? (ofInt32 n) = some n := by
  have h : asInt? (-2 ^ 31) (2 ^ 31 - 1) (int n.toInt) = some n.toInt :=
    asInt?_int (Int32.le_toInt n) (Int.le_sub_one_of_lt (Int32.toInt_lt n))
  rw [asInt32?, ofInt32, h]
  simp

@[simp] theorem asUint?_nat {bits : Nat} (a : Uint bits) : asUint? bits (nat a.toNat) = some a := by
  simp [asUint?, nat, int, Uint.ofNat?_toNat]

@[simp] theorem required_some {α : Type} (f : Json → Option α) (j : Json) : required f (some j) = f j := rfl

@[simp] theorem case?_record (name : String) (body : Json) : (record [(name, body)]).case? = some (name, body) := rfl

/-- A text that may be missing is written as `null` if it is. -/
@[simp] theorem optional_ofOption_text (a : Option String) : optional asText? (some (ofOption text a)) = some a := by
  cases a <;> rfl

theorem asList?_ofList_map {α β : Type} {write : α → Json} {read? : Json → Option β} {back : α → β}
    (h : ∀ a, read? (write a) = some (back a)) (as : List α) :
    asList? read? (ofList write as) = some (as.map back) := by
  have hf : read? ∘ write = fun a => pure (back a) := funext h
  rw [ofList, asList?, List.mapM_map, hf, List.mapM_pure]
  rfl

@[simp] theorem asList?_ofList {α : Type} {write : α → Json} {read? : Json → Option α}
    (h : ∀ a, read? (write a) = some a) (as : List α) : asList? read? (ofList write as) = some as := by
  rw [asList?_ofList_map h, List.map_id']

private theorem filter_member {members : List (String × Json)} (hd : (members.map (·.1)).Nodup) {k : String} {j : Json}
    (h : (k, j) ∈ members) :
    (members.map fun (k, v) => (some k, v)).filter (·.1 = some k) = [(some k, j)] := by
  induction members with
  | nil => cases h
  | cons m members ih =>
    obtain ⟨hm, hd⟩ := List.nodup_cons.1 hd
    rcases List.mem_cons.1 h with rfl | h
    · have hrest : (members.map fun (k, v) => (some k, v)).filter (·.1 = some k) = [] := by
        simp only [List.filter_map, List.map_eq_nil_iff, List.filter_eq_nil_iff]
        intro m hmem hk
        have : m.1 = k := by simpa using hk
        exact hm (List.mem_map.2 ⟨m, hmem, this⟩)
      rw [List.map_cons, List.filter_cons_of_pos (by simp), hrest]
    · have hne : m.1 ≠ k := by
        rintro rfl
        exact hm (List.mem_map.2 ⟨_, h, rfl⟩)
      rw [List.map_cons, List.filter_cons_of_neg (by simpa using hne), ih hd h]

/-- The fields of a record are its members, if their names are its own. -/
@[simp] theorem fields?_record {members : List (String × Json)} {names : List String} (hn : members.map (·.1) = names)
    (hd : names.Nodup) : (record members).fields? names = some (members.map fun m => some m.2) := by
  subst hn
  have hlookup : ∀ ms : List (String × Json), (∀ m ∈ ms, m ∈ members) →
      ((ms.map (·.1)).mapM fun name =>
        match (members.map fun (k, v) => (some k, v)).filter (·.1 = some name) with
        | [] => some none
        | [(_, j)] => some (some j)
        | _ => none) = some (ms.map fun m => some m.2) := by
    intro ms hms
    induction ms with
    | nil => rfl
    | cons m ms ih =>
      have hm := filter_member hd (hms m (List.mem_cons_self ..))
      rw [List.map_cons, List.mapM_cons, hm, ih fun m h => hms m (List.mem_cons_of_mem _ h)]
      rfl
  rw [record, fields?, lookups?, if_pos (by simp)]
  exact hlookup members fun m h => h

@[simp] theorem body?_record (form : Form) {members : List (String × Json)} {names : List String}
    (hn : members.map (·.1) = names) (hd : names.Nodup) :
    (record members).body? form names = some (members.map fun m => some m.2) := by
  cases form with
  | text => exact fields?_record hn hd
  | value => exact fields?_record hn hd

@[simp] theorem merged_text (s : String) : (text s).merged = text s := rfl

@[simp] theorem merged_bool (b : Bool) : (bool b).merged = bool b := rfl

@[simp] theorem merged_ofUInt16 (n : UInt16) : (ofUInt16 n).merged = ofUInt16 n := rfl

@[simp] theorem merged_ofUInt32 (n : UInt32) : (ofUInt32 n).merged = ofUInt32 n := rfl

/-- Members are all kept if each has a name of its own. -/
theorem merged_record {members : List (String × Json)} (hd : (members.map (·.1)).Nodup)
    (hm : ∀ m ∈ members, m.2.merged = m.2) : (record members).merged = record members := by
  have hkept : mergedMembers (members.map fun (k, v) => (some k, v)) = members.map fun (k, v) => (some k, v) := by
    induction members with
    | nil => rfl
    | cons m members ih =>
      obtain ⟨hnew, hd⟩ := List.nodup_cons.1 hd
      have hother : some m.1 ∉ (members.map fun (k, v) => (some k, v)).map (·.1) := by
        simpa [List.map_map, Function.comp_def] using hnew
      rw [List.map_cons, mergedMembers, if_neg hother, hm m (List.mem_cons_self ..),
        ih hd fun m' h => hm m' (List.mem_cons_of_mem _ h)]
  rw [record, merged, hkept]

mutual
/-- Whether all texts are sound and all numbers are doubles. -/
def isSound : Json → Bool
  | number n => n.toFloat?.isSome
  | string s => s.isSome
  | array items => soundItems items
  | object members => soundMembers members
  | _ => true
termination_by structural j => j

def soundItems : List Json → Bool
  | [] => true
  | j :: js => isSound j && soundItems js
termination_by structural js => js

def soundMembers : List (Option String × Json) → Bool
  | [] => true
  | (k, j) :: js => k.isSome && isSound j && soundMembers js
termination_by structural js => js
end

end LiquidityBook.Json
