import LiquidityBook.Proofs.Json.Text
import LiquidityBook.Wire.Message
import LiquidityBook.Wire.Plan
import Mathlib.Logic.Function.Basic

/-! What is written as a message, an answer, an intent or a plan is read back as the same value. Only a weight that is a
zero with a minus sign is not: it is read back as the zero without. -/
namespace LiquidityBook

namespace Json

private theorem injective_of_read {α : Type} {toJson : α → Json} {ofJson? : Json → Option α}
    (h : ∀ a, ofJson? (toJson a) = some a) : Function.Injective toJson := by
  intro a b hab
  have ha := h a
  rw [hab, h b] at ha
  exact (Option.some.inj ha).symm

private theorem ofList_injective {α : Type} {f : α → Json} (h : Function.Injective f) : Function.Injective (ofList f) :=
  fun _ _ hl => (List.map_inj_right fun _ _ hab => h hab).1 (Json.array.inj hl)

end Json

namespace Decimal

private theorem dropZeroSign_eq_iff (a : Decimal) : a.dropZeroSign = a ↔ ¬ (a.negative ∧ a.magnitude = 0) := by
  have hc : a.dropZeroSign = a ↔ decide (a.coefficient < 0) = a.negative := by
    constructor
    · exact congrArg negative
    · exact fun h => ext h a.natAbs_coefficient rfl
  rw [hc, coefficient]
  cases a.negative with
  | false => simp
  | true =>
    simp only [if_true, decide_eq_true_eq, true_and]
    omega

private theorem coefficient_dropZeroSign (a : Decimal) : a.dropZeroSign.coefficient = a.coefficient :=
  coefficient_ofCoefficient ..

private theorem dropZeroSign_dropZeroSign (a : Decimal) : a.dropZeroSign.dropZeroSign = a.dropZeroSign := by
  simp only [dropZeroSign, coefficient_ofCoefficient]
  rfl

private theorem toJson_injective : Function.Injective toJson := by
  intro a b h
  exact eq_of_text_eq (Json.injective_of_read Json.asText?_text h)

end Decimal

namespace BinWeight

private theorem dropZeroSigns_dropZeroSigns (w : BinWeight) : w.dropZeroSigns.dropZeroSigns = w.dropZeroSigns := by
  simp [dropZeroSigns, Decimal.dropZeroSign_dropZeroSign]

private theorem toJson_injective : Function.Injective toJson := by
  rintro ⟨o, x, y⟩ ⟨o', x', y'⟩ h
  have hfields : Json.ofInt32 o = Json.ofInt32 o' ∧ x.toJson = x'.toJson ∧ y.toJson = y'.toJson := by
    simpa [toJson] using congrArg (Json.fields? ["offset", "weight_x", "weight_y"]) h
  obtain ⟨ho, hx, hy⟩ := hfields
  rw [Json.injective_of_read Json.asInt32?_ofInt32 ho, Decimal.toJson_injective hx, Decimal.toJson_injective hy]

end BinWeight

namespace LiquidityIntent

private theorem dropZeroSigns_dropZeroSigns (i : LiquidityIntent) :
    i.dropZeroSigns.dropZeroSigns = i.dropZeroSigns := by
  simp [dropZeroSigns, BinWeight.dropZeroSigns_dropZeroSigns]

private theorem toJson_injective : Function.Injective toJson := by
  rintro ⟨p, x, y, s, n⟩ ⟨p', x', y', s', n'⟩ h
  have hfields : p.toJson = p'.toJson ∧ Json.text x = Json.text x' ∧ Json.text y = Json.text y' ∧
      Json.ofList BinWeight.toJson s = Json.ofList BinWeight.toJson s' ∧ Json.ofUInt32 n = Json.ofUInt32 n' := by
    simpa [toJson] using congrArg (Json.fields? ["pair", "amount_x", "amount_y", "spread", "id_slippage"]) h
  obtain ⟨hp, hx, hy, hs, hn⟩ := hfields
  rw [Json.injective_of_read Pair.ofJson?_toJson hp, Json.injective_of_read Json.asText?_text hx,
    Json.injective_of_read Json.asText?_text hy, Json.ofList_injective BinWeight.toJson_injective hs,
    Json.injective_of_read Json.asUInt32?_ofUInt32 hn]

end LiquidityIntent

namespace Wire
variable {α : Type} (toJson : α → Json) (ofJson? : Json → Option α)

def encode (a : α) : String := (toJson a).compact

def decode? (text : String) : Option α := (Json.parse? text).bind ofJson?

/-- A text that was read, as it is written again. -/
def recode? (text : String) : Option String := (decode? ofJson? text).map (encode toJson)

/-- Values are read back as they were written, and one reading and writing brings a text into its final form. -/
structure Exact : Prop where
  decode_encode : ∀ a, decode? ofJson? (encode toJson a) = some a
  recode_encode : ∀ a, recode? toJson ofJson? (encode toJson a) = some (encode toJson a)
  injective : Function.Injective (encode toJson)
  canonical : ∀ text canon, recode? toJson ofJson? text = some canon → recode? toJson ofJson? canon = some canon

/-- Values are read back as they were written but for what `settle` changes in them. It takes one more reading and
writing to bring such a text into its final form. -/
structure ExactUpTo (settle : α → α) : Prop where
  decode_encode : ∀ a, decode? ofJson? (encode toJson a) = some (settle a)
  recode_encode : ∀ a, recode? toJson ofJson? (encode toJson a) = some (encode toJson a) ↔ settle a = a
  injective : Function.Injective (encode toJson)
  canonical : ∀ text canon, recode? toJson ofJson? text = some canon →
    ∃ final, recode? toJson ofJson? canon = some final ∧ recode? toJson ofJson? final = some final

variable {toJson ofJson?}

private theorem encode_injective (hp : ∀ a, (toJson a).Plain) (hi : Function.Injective toJson) :
    Function.Injective (encode toJson) := fun a b h => hi (Json.eq_of_compact_eq (hp a) (hp b) h)

private theorem decode?_encode (hp : ∀ a, (toJson a).Plain) (a : α) :
    decode? ofJson? (encode toJson a) = ofJson? (toJson a) := by
  rw [decode?, encode, Json.parse?_compact (hp a), Option.bind_some]

private theorem exactUpTo_of_read {settle : α → α} (hp : ∀ a, (toJson a).Plain) (hi : Function.Injective toJson)
    (hr : ∀ a, ofJson? (toJson a) = some (settle a)) (hs : ∀ a, settle (settle a) = settle a) :
    ExactUpTo toJson ofJson? settle := by
  have hdecode (a : α) : decode? ofJson? (encode toJson a) = some (settle a) := (decode?_encode hp a).trans (hr a)
  have hrecode (a : α) : recode? toJson ofJson? (encode toJson a) = some (encode toJson (settle a)) := by
    rw [recode?, hdecode, Option.map_some]
  have hinj := encode_injective hp hi
  refine ⟨hdecode, fun a => ?_, hinj, fun text canon h => ?_⟩
  · rw [hrecode, Option.some.injEq]
    exact hinj.eq_iff
  · obtain ⟨a, _, rfl⟩ := Option.map_eq_some_iff.1 h
    refine ⟨encode toJson (settle a), hrecode a, ?_⟩
    rw [hrecode, hs]

private theorem exact_of_read (hp : ∀ a, (toJson a).Plain) (hr : ∀ a, ofJson? (toJson a) = some a) :
    Exact toJson ofJson? := by
  have hdecode (a : α) : decode? ofJson? (encode toJson a) = some a := (decode?_encode hp a).trans (hr a)
  have hrecode (a : α) : recode? toJson ofJson? (encode toJson a) = some (encode toJson a) := by
    rw [recode?, hdecode, Option.map_some]
  refine ⟨hdecode, hrecode, encode_injective hp (Json.injective_of_read hr), fun text canon h => ?_⟩
  obtain ⟨a, _, rfl⟩ := Option.map_eq_some_iff.1 h
  exact hrecode a

/-- Messages, queries, answers, plans and withdrawals are read back as they were written, different ones have different
texts, and a text that was read is in its final form once it is written again. So it is for weights and the intents that
list them, but that a weight of zero loses its minus sign, though neither its scale nor the number that it is. -/
theorem wire_round_trip :
    Exact ExecuteMsg.toJson ExecuteMsg.ofJson? ∧ Exact QueryMsg.toJson QueryMsg.ofJson? ∧
      Exact QueryAnswer.toJson QueryAnswer.ofJson? ∧
      Exact LbPairInformationResponse.toJson LbPairInformationResponse.ofJson? ∧
      Exact PresetResponse.toJson PresetResponse.ofJson? ∧ Exact TxResponse.toJson TxResponse.ofJson? ∧
      Exact TokenType.toJson TokenType.ofJson? ∧ Exact Pair.toJson Pair.ofJson? ∧
      Exact AllocationPlan.toJson AllocationPlan.ofJson? ∧ Exact RemovalIntent.toJson RemovalIntent.ofJson? ∧
      Exact RemovalPlan.toJson RemovalPlan.ofJson? ∧
      ExactUpTo BinWeight.toJson BinWeight.ofJson? BinWeight.dropZeroSigns ∧
      ExactUpTo LiquidityIntent.toJson LiquidityIntent.ofJson? LiquidityIntent.dropZeroSigns ∧
      ∀ a : Decimal, a.dropZeroSign.coefficient = a.coefficient ∧ a.dropZeroSign.scale = a.scale ∧
        (a.dropZeroSign = a ↔ ¬ (a.negative ∧ a.magnitude = 0)) := by
  refine ⟨exact_of_read ExecuteMsg.plain_toJson ExecuteMsg.ofJson?_toJson,
    exact_of_read QueryMsg.plain_toJson QueryMsg.ofJson?_toJson,
    exact_of_read QueryAnswer.plain_toJson QueryAnswer.ofJson?_toJson,
    exact_of_read LbPairInformationResponse.plain_toJson LbPairInformationResponse.ofJson?_toJson,
    exact_of_read PresetResponse.plain_toJson PresetResponse.ofJson?_toJson,
    exact_of_read TxResponse.plain_toJson TxResponse.ofJson?_toJson,
    exact_of_read TokenType.plain_toJson TokenType.ofJson?_toJson,
    exact_of_read Pair.plain_toJson Pair.ofJson?_toJson,
    exact_of_read AllocationPlan.plain_toJson AllocationPlan.ofJson?_toJson,
    exact_of_read RemovalIntent.plain_toJson RemovalIntent.ofJson?_toJson,
    exact_of_read RemovalPlan.plain_toJson RemovalPlan.ofJson?_toJson, ?_, ?_, ?_⟩
  · exact exactUpTo_of_read BinWeight.plain_toJson BinWeight.toJson_injective BinWeight.ofJson?_toJson
      BinWeight.dropZeroSigns_dropZeroSigns
  · exact exactUpTo_of_read LiquidityIntent.plain_toJson LiquidityIntent.toJson_injective LiquidityIntent.ofJson?_toJson
      LiquidityIntent.dropZeroSigns_dropZeroSigns
  · exact fun a => ⟨a.coefficient_dropZeroSign, rfl, a.dropZeroSign_eq_iff⟩

/-- A weight that is read as a zero with a minus sign is written with it, and that text is written without it when it is
read again. -/
theorem minus_zero_rewritten :
    let w : BinWeight := ⟨-3, ⟨true, 0, 28, by decide, by decide⟩, .one⟩
    decode? BinWeight.ofJson? "[-3, \"-0.001e-27\", \"1\"]" = some w ∧
      recode? BinWeight.toJson BinWeight.ofJson? (encode BinWeight.toJson w) ≠ some (encode BinWeight.toJson w) := by
  decide +kernel

end Wire

end LiquidityBook
