import LiquidityBook.Allocation
import LiquidityBook.Wire.Token

/-! The JSON form of spreads, intents and plans. -/
namespace LiquidityBook

namespace BinWeight

def toJson (w : BinWeight) : Json :=
  .record [("offset", .ofInt32 w.offset), ("weight_x", w.weightX.toJson), ("weight_y", w.weightY.toJson)]

def ofJson? (j : Json) : Option BinWeight := do
  let [offset, weightX, weightY] ← j.fields? ["offset", "weight_x", "weight_y"] | none
  return ⟨← Json.required Json.asInt32? offset, ← Json.required Decimal.ofJson? weightX,
    ← Json.required Decimal.ofJson? weightY⟩

@[simp] theorem plain_toJson (w : BinWeight) : w.toJson.Plain := .record (by simp)

/-- The same weights, without minus signs on zeros. -/
def dropZeroSigns (w : BinWeight) : BinWeight :=
  { w with weightX := w.weightX.dropZeroSign, weightY := w.weightY.dropZeroSign }

@[simp] theorem ofJson?_toJson (w : BinWeight) : ofJson? w.toJson = some w.dropZeroSigns := by
  simp [toJson, ofJson?, dropZeroSigns]

end BinWeight

namespace Shape

/-- The name of the shape stands beside its fields. -/
def toJson : Shape → Json
  | spot => .record [("shape", .text "spot")]
  | uniform radius => .record [("shape", .text "uniform"), ("radius", .ofUInt32 radius)]
  | curve radius sigma =>
    .record [("shape", .text "curve"), ("radius", .ofUInt32 radius), ("sigma", .ofFloat sigma)]

/-- A number as a double. -/
private def sigma? : Json → Option Float
  | .number n => n.toFloat?
  | _ => none

/-- The tag and what stands beside it. -/
private def tagged? : Json → Option (String × Json)
  | .array (.string (some tag) :: rest) => some (tag, .array rest)
  | .object members =>
    match members.filter (·.1 = some "shape") with
    | [(_, .string (some tag))] => some (tag, .object (members.filter (·.1 ≠ some "shape")))
    | _ => none
  | _ => none

/-- All of a shape has to be sound, also what is passed over, and nested at most 127 deep. -/
def ofJson? (j : Json) : Option Shape := do
  if !j.isSound || 127 < j.depth then none
  let (tag, body) ← tagged? j
  match tag with
  | "spot" =>
    match body with
    | .array (_ :: _) => none
    | _ => return spot
  | "uniform" =>
    let [radius] ← body.fields? ["radius"] | none
    return uniform (← Json.required Json.asUInt32? radius)
  | "curve" =>
    let [radius, sigma] ← body.fields? ["radius", "sigma"] | none
    return curve (← Json.required Json.asUInt32? radius) (← Json.required sigma? sigma)
  | _ => none

end Shape

namespace LiquidityIntent

def toJson (i : LiquidityIntent) : Json :=
  .record [("pair", i.pair.toJson), ("amount_x", .text i.amountX), ("amount_y", .text i.amountY),
    ("spread", .ofList BinWeight.toJson i.spread), ("id_slippage", .ofUInt32 i.idSlippage)]

def ofJson? (j : Json) : Option LiquidityIntent := do
  let [pair, amountX, amountY, spread, idSlippage] ←
    j.fields? ["pair", "amount_x", "amount_y", "spread", "id_slippage"] | none
  return ⟨← Json.required Pair.ofJson? pair, ← Json.required Json.asText? amountX,
    ← Json.required Json.asText? amountY, ← Json.required (Json.asList? BinWeight.ofJson?) spread,
    ← Json.required Json.asUInt32? idSlippage⟩

@[simp] theorem plain_toJson (i : LiquidityIntent) : i.toJson.Plain := .record (by simp)

/-- The same intent, without minus signs on weights that are zero. -/
def dropZeroSigns (i : LiquidityIntent) : LiquidityIntent := { i with spread := i.spread.map BinWeight.dropZeroSigns }

/-- An intent comes back but for the signs of zero weights. -/
@[simp] theorem ofJson?_toJson (i : LiquidityIntent) : ofJson? i.toJson = some i.dropZeroSigns := by
  simp [toJson, ofJson?, dropZeroSigns, Json.asList?_ofList_map BinWeight.ofJson?_toJson]

end LiquidityIntent

namespace BinAllocation

def toJson (b : BinAllocation) : Json :=
  .record [("offset", .ofInt32 b.offset), ("bin_id", b.binId.toJson),
    ("distribution_x", .nat b.distributionX.toNat), ("distribution_y", .nat b.distributionY.toNat),
    ("deposit_x", b.depositX.toJson), ("deposit_y", b.depositY.toJson)]

/-- The integers of a distribution are numbers of up to 128 bits here, unlike those of a message. -/
def ofJson? (j : Json) : Option BinAllocation := do
  let [offset, binId, distributionX, distributionY, depositX, depositY] ←
    j.fields? ["offset", "bin_id", "distribution_x", "distribution_y", "deposit_x", "deposit_y"] | none
  return ⟨← Json.required Json.asInt32? offset, ← Json.required BinId.ofJson? binId,
    ← Json.required (Json.asUint? 128) distributionX, ← Json.required (Json.asUint? 128) distributionY,
    ← Json.required Uint.ofJson? depositX, ← Json.required Uint.ofJson? depositY⟩

@[simp] theorem plain_toJson (b : BinAllocation) : b.toJson.Plain := .record (by simp)

@[simp] theorem ofJson?_toJson (b : BinAllocation) : ofJson? b.toJson = some b := by
  simp [toJson, ofJson?]

end BinAllocation

namespace AllocationPlan

def toJson (p : AllocationPlan) : Json :=
  .record [("pair", p.pair.toJson), ("bins", .ofList BinAllocation.toJson p.bins),
    ("amount_x", p.amountX.toJson), ("amount_y", p.amountY.toJson),
    ("amount_x_min", p.amountXMin.toJson), ("amount_y_min", p.amountYMin.toJson),
    ("desired_active_id", p.desiredActiveId.toJson), ("id_slippage", .ofUInt32 p.idSlippage)]

def ofJson? (j : Json) : Option AllocationPlan := do
  let [pair, bins, amountX, amountY, amountXMin, amountYMin, desiredActiveId, idSlippage] ←
    j.fields? ["pair", "bins", "amount_x", "amount_y", "amount_x_min", "amount_y_min",
      "desired_active_id", "id_slippage"] | none
  return ⟨← Json.required Pair.ofJson? pair, ← Json.required (Json.asList? BinAllocation.ofJson?) bins,
    ← Json.required Uint.ofJson? amountX, ← Json.required Uint.ofJson? amountY,
    ← Json.required Uint.ofJson? amountXMin, ← Json.required Uint.ofJson? amountYMin,
    ← Json.required BinId.ofJson? desiredActiveId, ← Json.required Json.asUInt32? idSlippage⟩

@[simp] theorem plain_toJson (p : AllocationPlan) : p.toJson.Plain := .record (by simp)

@[simp] theorem ofJson?_toJson (p : AllocationPlan) : ofJson? p.toJson = some p := by
  simp [toJson, ofJson?]

end AllocationPlan

namespace BinPosition

def toJson (p : BinPosition) : Json := .record [("bin_id", p.binId.toJson), ("amount", p.amount.toJson)]

def ofJson? (j : Json) : Option BinPosition := do
  let [binId, amount] ← j.fields? ["bin_id", "amount"] | none
  return ⟨← Json.required BinId.ofJson? binId, ← Json.required Uint.ofJson? amount⟩

@[simp] theorem plain_toJson (p : BinPosition) : p.toJson.Plain := .record (by simp)

@[simp] theorem ofJson?_toJson (p : BinPosition) : ofJson? p.toJson = some p := by
  simp [toJson, ofJson?]

end BinPosition

namespace RemovalIntent

def toJson (i : RemovalIntent) : Json :=
  .record [("pair", i.pair.toJson), ("positions", .ofList BinPosition.toJson i.positions),
    ("expected_x", i.expectedX.toJson), ("expected_y", i.expectedY.toJson)]

def ofJson? (j : Json) : Option RemovalIntent := do
  let [pair, positions, expectedX, expectedY] ←
    j.fields? ["pair", "positions", "expected_x", "expected_y"] | none
  return ⟨← Json.required Pair.ofJson? pair, ← Json.required (Json.asList? BinPosition.ofJson?) positions,
    ← Json.required Uint.ofJson? expectedX, ← Json.required Uint.ofJson? expectedY⟩

@[simp] theorem plain_toJson (i : RemovalIntent) : i.toJson.Plain := .record (by simp)

@[simp] theorem ofJson?_toJson (i : RemovalIntent) : ofJson? i.toJson = some i := by
  simp [toJson, ofJson?]

end RemovalIntent

namespace RemovalPlan

def toJson (p : RemovalPlan) : Json :=
  .record [("pair", p.pair.toJson), ("ids", .ofList BinId.toJson p.ids),
    ("amounts", .ofList Uint.toJson p.amounts), ("amount_x_min", p.amountXMin.toJson),
    ("amount_y_min", p.amountYMin.toJson)]

def ofJson? (j : Json) : Option RemovalPlan := do
  let [pair, ids, amounts, amountXMin, amountYMin] ←
    j.fields? ["pair", "ids", "amounts", "amount_x_min", "amount_y_min"] | none
  return ⟨← Json.required Pair.ofJson? pair, ← Json.required (Json.asList? BinId.ofJson?) ids,
    ← Json.required (Json.asList? Uint.ofJson?) amounts, ← Json.required Uint.ofJson? amountXMin,
    ← Json.required Uint.ofJson? amountYMin⟩

@[simp] theorem plain_toJson (p : RemovalPlan) : p.toJson.Plain := .record (by simp)

@[simp] theorem ofJson?_toJson (p : RemovalPlan) : ofJson? p.toJson = some p := by
  simp [toJson, ofJson?]

end RemovalPlan

end LiquidityBook
