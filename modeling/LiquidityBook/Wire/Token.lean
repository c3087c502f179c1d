import LiquidityBook.BinId
import LiquidityBook.Text
import LiquidityBook.Json.Plain
import LiquidityBook.Json.Schema
import LiquidityBook.Token
import LiquidityBook.Decimal.Reader
import LiquidityBook.Binary64.Text

/-! The JSON form of numbers, tokens and pairs. Amounts of 256 bits are hexadecimal texts and
decimals are texts that keep their scale. -/
namespace LiquidityBook

namespace Uint

/-- Lower-case hexadecimal without leading zeros. -/
def toJson (a : Uint256) : Json := .text (String.ofList ('0' :: 'x' :: Nat.toDigits 16 a.toNat))

/-- One to 64 hexadecimal digits and blanks, with or without `0x` in front. -/
def ofJson? (j : Json) : Option Uint256 := do
  let digits := match (← j.asText?).toList with
    | '0' :: 'x' :: ds => ds
    | ds => ds
  if digits.isEmpty || 64 < digits.length then none
  ofNat? 256 (← Hex.spacedValue? digits)

@[simp] theorem plain_toJson (a : Uint256) : (toJson a).Plain := .text _

@[simp] theorem ofJson?_toJson (a : Uint256) : ofJson? (toJson a) = some a := by
  have hlen : ¬ 64 < (Nat.toDigits 16 a.toNat).length :=
    Nat.not_lt.2 ((Nat.length_toDigits_le_iff (by decide) (by decide)).2 a.isLt)
  simp [toJson, ofJson?, Nat.toDigits_ne_nil, hlen, Hex.spacedValue?_toDigits, ofNat?_toNat]

end Uint

namespace Decimal

def toJson (a : Decimal) : Json := .text a.text

/-- A text, an integer of 64 bits or the shortest text of a double. -/
def ofJson? : Json → Option Decimal
  | .string s => s.bind read?
  | .number (.integer n) =>
    if -2 ^ 63 ≤ n ∧ n < 2 ^ 64 then ofParts? n 0
    else (Json.Number.integer n).toFloat?.bind fun x => ofPlain? (Binary64.text x).toList
  | .number n => n.toFloat?.bind fun x => ofPlain? (Binary64.text x).toList
  | _ => none

@[simp] theorem plain_toJson (a : Decimal) : a.toJson.Plain := .text _

/-- A zero loses its minus sign on the way back. -/
@[simp] theorem ofJson?_toJson (a : Decimal) : ofJson? a.toJson = some a.dropZeroSign := read?_text a

end Decimal

namespace BinId

def toJson (b : BinId) : Json := .nat b.value

/-- A number of 32 bits that is the id of a bin. -/
def ofJson? (j : Json) : Option BinId :=
  match (j.asUInt32?).map (ofNat ·.toNat) with
  | some (.ok b) => some b
  | _ => none

@[simp] theorem plain_toJson (b : BinId) : b.toJson.Plain := .nat _

@[simp] theorem ofJson?_toJson (b : BinId) : ofJson? b.toJson = some b := by
  have hj : b.toJson = .ofUInt32 (.ofNat b.value) := by rw [toJson, Json.ofUInt32, b.toNat_value]
  rw [hj, ofJson?, Json.asUInt32?_ofUInt32, Option.map_some, b.toNat_value, b.ofNat_value]

end BinId

namespace ContractRef

def toJson (c : ContractRef) : Json :=
  .record [("address", .text c.address), ("code_hash", .text c.codeHash)]

def ofJson? (j : Json) : Option ContractRef := do
  let [address, codeHash] ← j.fields? ["address", "code_hash"] | none
  return ⟨← Json.required Json.asText? address, ← Json.required Json.asText? codeHash⟩

@[simp] theorem plain_toJson (c : ContractRef) : c.toJson.Plain := .record (by simp)

@[simp] theorem merged_toJson (c : ContractRef) : c.toJson.merged = c.toJson :=
  Json.merged_record (by simp) (by simp)

@[simp] theorem ofJson?_toJson (c : ContractRef) : ofJson? c.toJson = some c := by
  simp [toJson, ofJson?]

end ContractRef

namespace Token

def toJson (t : Token) : Json :=
  .record [("address", .text t.address), ("code_hash", .text t.codeHash), ("symbol", .text t.symbol),
    ("decimals", .nat t.decimals.toNat)]

def ofJson? (j : Json) : Option Token := do
  let [address, codeHash, symbol, decimals] ← j.fields? ["address", "code_hash", "symbol", "decimals"] | none
  return ⟨← Json.required Json.asText? address, ← Json.required Json.asText? codeHash,
    ← Json.required Json.asText? symbol, ← Json.required Json.asUInt8? decimals⟩

@[simp] theorem plain_toJson (t : Token) : t.toJson.Plain := .record (by simp)

@[simp] theorem ofJson?_toJson (t : Token) : ofJson? t.toJson = some t := by
  simp [toJson, ofJson?]

end Token

namespace TokenType

def toJson : TokenType → Json
  | customToken contractAddr tokenCodeHash =>
    .record [("custom_token",
      .record [("contract_addr", .text contractAddr), ("token_code_hash", .text tokenCodeHash)])]

/-- There are custom tokens only. -/
def read? (form : Json.Form) (j : Json) : Option TokenType := do
  let ("custom_token", body) ← j.case? | none
  let [contractAddr, tokenCodeHash] ← body.body? form ["contract_addr", "token_code_hash"] | none
  return .customToken (← Json.required Json.asText? contractAddr) (← Json.required Json.asText? tokenCodeHash)

def ofJson? (j : Json) : Option TokenType := read? .text j

@[simp] theorem plain_toJson (t : TokenType) : t.toJson.Plain := by
  cases t
  exact .record (by simpa using .record (by simp))

@[simp] theorem merged_toJson (t : TokenType) : t.toJson.merged = t.toJson := by
  cases t
  exact Json.merged_record (by simp) (by simpa using Json.merged_record (by simp) (by simp))

@[simp] theorem read?_toJson (form : Json.Form) (t : TokenType) : read? form t.toJson = some t := by
  cases t
  simp [toJson, read?]

@[simp] theorem ofJson?_toJson (t : TokenType) : ofJson? t.toJson = some t := read?_toJson .text t

end TokenType

namespace Pair

def toJson (p : Pair) : Json :=
  .record [("token_x", p.tokenX.toJson), ("token_y", p.tokenY.toJson), ("bin_step", .nat p.binStep.toNat)]

def ofJson? (j : Json) : Option Pair := do
  let [tokenX, tokenY, binStep] ← j.fields? ["token_x", "token_y", "bin_step"] | none
  return ⟨← Json.required Token.ofJson? tokenX, ← Json.required Token.ofJson? tokenY,
    ← Json.required Json.asUInt16? binStep⟩

@[simp] theorem plain_toJson (p : Pair) : p.toJson.Plain := .record (by simp)

@[simp] theorem ofJson?_toJson (p : Pair) : ofJson? p.toJson = some p := by
  simp [toJson, ofJson?]

end Pair

end LiquidityBook
