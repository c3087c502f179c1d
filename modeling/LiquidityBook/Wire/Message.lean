import LiquidityBook.Contract.Transaction
import LiquidityBook.Wire.Token

/-! The JSON form of messages, queries, answers and transactions. A message is an object whose one
member names its case. -/
namespace LiquidityBook

private def texts (ss : List String) : Json := .ofList .text ss

private def text? : Option Json → Option String := Json.required Json.asText?

private def texts? : Option Json → Option (List String) := Json.required (Json.asList? Json.asText?)

private def uint16? : Option Json → Option UInt16 := Json.required Json.asUInt16?

private def uint32? : Option Json → Option UInt32 := Json.required Json.asUInt32?

private def uint64? : Option Json → Option UInt64 := Json.required Json.asUInt64?

private def bool? : Option Json → Option Bool := Json.required Json.asBool?

private def token? : Option Json → Option TokenType := Json.required TokenType.ofJson?

@[simp] private theorem plain_texts (ss : List String) : (texts ss).Plain := .ofList .text ss

@[simp] private theorem text?_text (s : String) : text? (some (.text s)) = some s := Json.asText?_text s

@[simp] private theorem texts?_texts (ss : List String) : texts? (some (texts ss)) = some ss :=
  Json.asList?_ofList Json.asText?_text ss

@[simp] private theorem uint16?_ofUInt16 (n : UInt16) : uint16? (some (.ofUInt16 n)) = some n :=
  Json.asUInt16?_ofUInt16 n

@[simp] private theorem uint32?_ofUInt32 (n : UInt32) : uint32? (some (.ofUInt32 n)) = some n :=
  Json.asUInt32?_ofUInt32 n

@[simp] private theorem uint64?_ofUInt64 (n : UInt64) : uint64? (some (.ofUInt64 n)) = some n :=
  Json.asUInt64?_ofUInt64 n

@[simp] private theorem bool?_bool (b : Bool) : bool? (some (.bool b)) = some b := Json.asBool?_bool b

@[simp] private theorem token?_toJson (t : TokenType) : token? (some t.toJson) = some t := TokenType.ofJson?_toJson t

namespace LiquidityParameters

/-- Amounts and distributions are texts of digits, as contracts take their wide integers. -/
def toJson (p : LiquidityParameters) : Json :=
  .record [("token_x", p.tokenX.toJson), ("token_y", p.tokenY.toJson), ("bin_step", .ofUInt16 p.binStep),
    ("amount_x", .text p.amountX), ("amount_y", .text p.amountY), ("amount_x_min", .text p.amountXMin),
    ("amount_y_min", .text p.amountYMin), ("active_id_desired", .ofUInt32 p.activeIdDesired),
    ("id_slippage", .ofUInt32 p.idSlippage), ("delta_ids", .ofList .ofInt32 p.deltaIds),
    ("distribution_x", texts p.distributionX), ("distribution_y", texts p.distributionY),
    ("deadline", .ofUInt64 p.deadline)]

def ofJson? (j : Json) : Option LiquidityParameters := do
  let [tokenX, tokenY, binStep, amountX, amountY, amountXMin, amountYMin, activeIdDesired, idSlippage,
      deltaIds, distributionX, distributionY, deadline] ←
    j.fields? ["token_x", "token_y", "bin_step", "amount_x", "amount_y", "amount_x_min", "amount_y_min",
      "active_id_desired", "id_slippage", "delta_ids", "distribution_x", "distribution_y", "deadline"] | none
  return ⟨← token? tokenX, ← token? tokenY, ← uint16? binStep, ← text? amountX, ← text? amountY,
    ← text? amountXMin, ← text? amountYMin, ← uint32? activeIdDesired, ← uint32? idSlippage,
    ← Json.required (Json.asList? Json.asInt32?) deltaIds, ← texts? distributionX, ← texts? distributionY,
    ← uint64? deadline⟩

@[simp] theorem plain_toJson (p : LiquidityParameters) : p.toJson.Plain := .record (by simp)

@[simp] theorem ofJson?_toJson (p : LiquidityParameters) : ofJson? p.toJson = some p := by
  rw [toJson, ofJson?, Json.fields?_record, Option.bind_eq_bind, Option.bind_some]
  -- The fields are read in place and only then bound: under so many binders each bind would double the work.
  · simp only [List.map_cons, List.map_nil]
    simp only [token?_toJson, uint16?_ofUInt16, text?_text, uint32?_ofUInt32, Json.required_some,
      Json.asList?_ofList Json.asInt32?_ofInt32, texts?_texts, uint64?_ofUInt64]
    rfl
  · rfl
  · decide

end LiquidityParameters

namespace RemoveLiquidityParams

def toJson (p : RemoveLiquidityParams) : Json :=
  .record [("token_x", p.tokenX.toJson), ("token_y", p.tokenY.toJson), ("bin_step", .ofUInt16 p.binStep),
    ("amount_x_min", .text p.amountXMin), ("amount_y_min", .text p.amountYMin),
    ("ids", .ofList .ofUInt32 p.ids), ("amounts", texts p.amounts), ("deadline", .ofUInt64 p.deadline)]

def ofJson? (j : Json) : Option RemoveLiquidityParams := do
  let [tokenX, tokenY, binStep, amountXMin, amountYMin, ids, amounts, deadline] ←
    j.fields? ["token_x", "token_y", "bin_step", "amount_x_min", "amount_y_min", "ids", "amounts",
      "deadline"] | none
  return ⟨← token? tokenX, ← token? tokenY, ← uint16? binStep, ← text? amountXMin, ← text? amountYMin,
    ← Json.required (Json.asList? Json.asUInt32?) ids, ← texts? amounts, ← uint64? deadline⟩

@[simp] theorem plain_toJson (p : RemoveLiquidityParams) : p.toJson.Plain := .record (by simp)

@[simp] theorem ofJson?_toJson (p : RemoveLiquidityParams) : ofJson? p.toJson = some p := by
  rw [toJson, ofJson?, Json.fields?_record, Option.bind_eq_bind, Option.bind_some]
  · simp only [List.map_cons, List.map_nil]
    simp only [token?_toJson, uint16?_ofUInt16, text?_text, Json.required_some,
      Json.asList?_ofList Json.asUInt32?_ofUInt32, texts?_texts, uint64?_ofUInt64]
    rfl
  · rfl
  · decide

end RemoveLiquidityParams

namespace ExecuteMsg

/-- The fields of a message stand under the name of its case. -/
def toJson (m : ExecuteMsg) : Json :=
  let body := match m with
    | addLiquidity p => [("liquidity_parameters", p.toJson)]
    | removeLiquidity p => [("remove_liquidity_params", p.toJson)]
    | swap swapForY recipient amountReceived =>
      [("swap_for_y", .bool swapForY), ("to", .text recipient), ("amount_received", .text amountReceived)]
    | createLbPair tokenX tokenY activeId binStep =>
      [("token_x", tokenX.toJson), ("token_y", tokenY.toJson), ("active_id", .ofUInt32 activeId),
        ("bin_step", .ofUInt16 binStep)]
    | setViewingKey key padding => [("key", .text key), ("padding", .text padding)]
  .record [(m.kind, .record body)]

/-- A case that is not known is refused, and so is a second member beside the case. -/
def ofJson? (j : Json) : Option ExecuteMsg := do
  let (kind, body) ← j.case?
  match kind with
  | "add_liquidity" =>
    let [p] ← body.fields? ["liquidity_parameters"] | none
    return addLiquidity (← Json.required LiquidityParameters.ofJson? p)
  | "remove_liquidity" =>
    let [p] ← body.fields? ["remove_liquidity_params"] | none
    return removeLiquidity (← Json.required RemoveLiquidityParams.ofJson? p)
  | "swap" =>
    let [swapForY, recipient, amountReceived] ← body.fields? ["swap_for_y", "to", "amount_received"] | none
    return swap (← bool? swapForY) (← text? recipient) (← text? amountReceived)
  | "create_lb_pair" =>
    let [tokenX, tokenY, activeId, binStep] ←
      body.fields? ["token_x", "token_y", "active_id", "bin_step"] | none
    return createLbPair (← token? tokenX) (← token? tokenY) (← uint32? activeId) (← uint16? binStep)
  | "set_viewing_key" =>
    let [key, padding] ← body.fields? ["key", "padding"] | none
    return setViewingKey (← text? key) (← text? padding)
  | _ => none

@[simp] theorem plain_toJson (m : ExecuteMsg) : m.toJson.Plain := by
  cases m <;> exact .record (by simpa using .record (by simp))

@[simp] theorem ofJson?_toJson (m : ExecuteMsg) : ofJson? m.toJson = some m := by
  cases m <;> simp [toJson, ofJson?, kind]

end ExecuteMsg

namespace QueryMsg

def toJson (m : QueryMsg) : Json :=
  let body := match m with
    | balance address key => [("address", .text address), ("key", .text key)]
    | getLbPairInformation tokenA tokenB binStep =>
      [("token_a", tokenA.toJson), ("token_b", tokenB.toJson), ("bin_step", .ofUInt16 binStep)]
    | getPreset binStep => [("bin_step", .ofUInt16 binStep)]
  .record [(m.kind, .record body)]

def ofJson? (j : Json) : Option QueryMsg := do
  let (kind, body) ← j.case?
  match kind with
  | "balance" =>
    let [address, key] ← body.fields? ["address", "key"] | none
    return balance (← text? address) (← text? key)
  | "get_lb_pair_information" =>
    let [tokenA, tokenB, binStep] ← body.fields? ["token_a", "token_b", "bin_step"] | none
    return getLbPairInformation (← token? tokenA) (← token? tokenB) (← uint16? binStep)
  | "get_preset" =>
    let [binStep] ← body.fields? ["bin_step"] | none
    return getPreset (← uint16? binStep)
  | _ => none

@[simp] theorem plain_toJson (m : QueryMsg) : m.toJson.Plain := by
  cases m <;> exact .record (by simpa using .record (by simp))

@[simp] theorem ofJson?_toJson (m : QueryMsg) : ofJson? m.toJson = some m := by
  cases m <;> simp [toJson, ofJson?, kind]

end QueryMsg

namespace QueryAnswer

def toJson : QueryAnswer → Json
  | balance amount => .record [("balance", .record [("amount", .text amount)])]
  | viewingKeyError msg => .record [("viewing_key_error", .record [("msg", .text msg)])]

/-- A balance or a refusal of the key. What either holds may be an array in a text, but not in a value. -/
def read? (form : Json.Form) (j : Json) : Option QueryAnswer := do
  let (kind, body) ← j.case?
  match kind with
  | "balance" =>
    let [amount] ← body.body? form ["amount"] | none
    return balance (← text? amount)
  | "viewing_key_error" =>
    let [msg] ← body.body? form ["msg"] | none
    return viewingKeyError (← text? msg)
  | _ => none

def ofJson? (j : Json) : Option QueryAnswer := read? .text j

/-- What a querier hands over is a value, with no name twice in an object. -/
def ofAnswer? (j : Json) : Option QueryAnswer := read? .value j.merged

@[simp] theorem plain_toJson (a : QueryAnswer) : a.toJson.Plain := by
  cases a <;> exact .record (by simpa using .record (by simp))

private theorem merged_toJson (a : QueryAnswer) : a.toJson.merged = a.toJson := by
  cases a with
  | balance amount =>
    exact Json.merged_record (by simp) (by simpa using Json.merged_record (by simp) (by simp))
  | viewingKeyError msg =>
    exact Json.merged_record (by simp) (by simpa using Json.merged_record (by simp) (by simp))

@[simp] theorem read?_toJson (form : Json.Form) (a : QueryAnswer) : read? form a.toJson = some a := by
  cases a <;> simp [toJson, read?]

@[simp] theorem ofJson?_toJson (a : QueryAnswer) : ofJson? a.toJson = some a := read?_toJson .text a

theorem ofAnswer?_toJson (a : QueryAnswer) : ofAnswer? a.toJson = some a := by
  rw [ofAnswer?, merged_toJson, read?_toJson]

/-- What an answer holds is an object; a text may have an array there. -/
example : ofAnswer? (.record [("balance", .array [.text "42"])]) = none ∧
    ofJson? (.record [("balance", .array [.text "42"])]) = some (.balance "42") := ⟨rfl, rfl⟩

end QueryAnswer

namespace LbPair

def toJson (p : LbPair) : Json :=
  .record [("token_x", p.tokenX.toJson), ("token_y", p.tokenY.toJson), ("bin_step", .ofUInt16 p.binStep),
    ("contract", p.contract.toJson)]

/-- The form matters for the tokens, which are choices; the pair itself may be an array in either form. -/
def read? (form : Json.Form) (j : Json) : Option LbPair := do
  let [tokenX, tokenY, binStep, contract] ←
    j.fields? ["token_x", "token_y", "bin_step", "contract"] | none
  return ⟨← Json.required (TokenType.read? form) tokenX, ← Json.required (TokenType.read? form) tokenY,
    ← uint16? binStep, ← Json.required ContractRef.ofJson? contract⟩

@[simp] theorem plain_toJson (p : LbPair) : p.toJson.Plain := .record (by simp)

@[simp] private theorem merged_toJson (p : LbPair) : p.toJson.merged = p.toJson :=
  Json.merged_record (by simp) (by simp)

@[simp] theorem read?_toJson (form : Json.Form) (p : LbPair) : read? form p.toJson = some p := by
  simp [toJson, read?]

end LbPair

namespace LbPairInformation

def toJson (i : LbPairInformation) : Json :=
  .record [("bin_step", .ofUInt16 i.binStep), ("lb_pair", i.lbPair.toJson),
    ("created_by_owner", .bool i.createdByOwner), ("ignored_for_routing", .bool i.ignoredForRouting)]

def read? (form : Json.Form) (j : Json) : Option LbPairInformation := do
  let [binStep, lbPair, createdByOwner, ignoredForRouting] ←
    j.fields? ["bin_step", "lb_pair", "created_by_owner", "ignored_for_routing"] | none
  return ⟨← uint16? binStep, ← Json.required (LbPair.read? form) lbPair, ← bool? createdByOwner,
    ← bool? ignoredForRouting⟩

@[simp] theorem plain_toJson (i : LbPairInformation) : i.toJson.Plain := .record (by simp)

@[simp] private theorem merged_toJson (i : LbPairInformation) : i.toJson.merged = i.toJson :=
  Json.merged_record (by simp) (by simp)

@[simp] theorem read?_toJson (form : Json.Form) (i : LbPairInformation) : read? form i.toJson = some i := by
  simp [toJson, read?]

end LbPairInformation

namespace LbPairInformationResponse

def toJson (r : LbPairInformationResponse) : Json :=
  .record [("lb_pair_information", r.lbPairInformation.toJson)]

def read? (form : Json.Form) (j : Json) : Option LbPairInformationResponse := do
  let [information] ← j.fields? ["lb_pair_information"] | none
  return ⟨← Json.required (LbPairInformation.read? form) information⟩

def ofJson? (j : Json) : Option LbPairInformationResponse := read? .text j

def ofAnswer? (j : Json) : Option LbPairInformationResponse := read? .value j.merged

@[simp] theorem plain_toJson (r : LbPairInformationResponse) : r.toJson.Plain := .record (by simp)

private theorem merged_toJson (r : LbPairInformationResponse) : r.toJson.merged = r.toJson :=
  Json.merged_record (by simp) (by simp)

@[simp] theorem read?_toJson (form : Json.Form) (r : LbPairInformationResponse) : read? form r.toJson = some r := by
  simp [toJson, read?]

@[simp] theorem ofJson?_toJson (r : LbPairInformationResponse) : ofJson? r.toJson = some r := read?_toJson .text r

theorem ofAnswer?_toJson (r : LbPairInformationResponse) : ofAnswer? r.toJson = some r := by
  rw [ofAnswer?, merged_toJson, read?_toJson]

end LbPairInformationResponse

namespace PresetResponse

def toJson (p : PresetResponse) : Json :=
  .record [("base_factor", .ofUInt16 p.baseFactor), ("filter_period", .ofUInt16 p.filterPeriod),
    ("decay_period", .ofUInt16 p.decayPeriod), ("reduction_factor", .ofUInt16 p.reductionFactor),
    ("variable_fee_control", .ofUInt32 p.variableFeeControl), ("protocol_share", .ofUInt16 p.protocolShare),
    ("max_volatility_accumulator", .ofUInt32 p.maxVolatilityAccumulator), ("is_open", .bool p.isOpen)]

def ofJson? (j : Json) : Option PresetResponse := do
  let [baseFactor, filterPeriod, decayPeriod, reductionFactor, variableFeeControl, protocolShare,
      maxVolatilityAccumulator, isOpen] ←
    j.fields? ["base_factor", "filter_period", "decay_period", "reduction_factor", "variable_fee_control",
      "protocol_share", "max_volatility_accumulator", "is_open"] | none
  return ⟨← uint16? baseFactor, ← uint16? filterPeriod, ← uint16? decayPeriod, ← uint16? reductionFactor,
    ← uint32? variableFeeControl, ← uint16? protocolShare, ← uint32? maxVolatilityAccumulator,
    ← bool? isOpen⟩

/-- No field of a preset is a choice, so that a value is read as a text is. -/
def ofAnswer? (j : Json) : Option PresetResponse := ofJson? j.merged

@[simp] theorem plain_toJson (p : PresetResponse) : p.toJson.Plain := .record (by simp)

private theorem merged_toJson (p : PresetResponse) : p.toJson.merged = p.toJson :=
  Json.merged_record (by simp) (by simp)

@[simp] theorem ofJson?_toJson (p : PresetResponse) : ofJson? p.toJson = some p := by
  rw [toJson, ofJson?, Json.fields?_record, Option.bind_eq_bind, Option.bind_some]
  · simp only [List.map_cons, List.map_nil]
    simp only [uint16?_ofUInt16, uint32?_ofUInt32, bool?_bool]
    rfl
  · rfl
  · decide

theorem ofAnswer?_toJson (p : PresetResponse) : ofAnswer? p.toJson = some p := by
  rw [ofAnswer?, merged_toJson, ofJson?_toJson]

end PresetResponse

namespace TxRequest

def toJson (r : TxRequest) : Json :=
  .record [("sender", .text r.sender), ("contract", r.contract.toJson), ("msg", r.msg.toJson),
    ("gas_limit", .ofUInt64 r.gasLimit)]

end TxRequest

namespace TxResponse

def toJson (r : TxResponse) : Json :=
  .record [("code", .ofUInt32 r.code), ("raw_log", .text r.rawLog), ("gas_used", .ofUInt64 r.gasUsed),
    ("tx_hash", .ofOption .text r.txHash)]

def ofJson? (j : Json) : Option TxResponse := do
  let [code, rawLog, gasUsed, txHash] ← j.fields? ["code", "raw_log", "gas_used", "tx_hash"] | none
  return ⟨← uint32? code, ← text? rawLog, ← uint64? gasUsed, ← Json.optional Json.asText? txHash⟩

@[simp] theorem plain_toJson (r : TxResponse) : r.toJson.Plain := .record (by simp)

@[simp] theorem ofJson?_toJson (r : TxResponse) : ofJson? r.toJson = some r := by
  simp [toJson, ofJson?]

end TxResponse

namespace TxOutcome

/-- The case stands beside the fields, as the member `status`. -/
def toJson : TxOutcome → Json
  | success txHash gasUsed =>
    .record [("status", .text "success"), ("tx_hash", .ofOption .text txHash), ("gas_used", .ofUInt64 gasUsed)]
  | failed code rawLog gasUsed =>
    .record [("status", .text "failed"), ("code", .ofUInt32 code), ("raw_log", .text rawLog),
      ("gas_used", .ofUInt64 gasUsed)]

end TxOutcome

end LiquidityBook
