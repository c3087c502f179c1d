import LiquidityBook.Command.Argument
import LiquidityBook.Command.Basic
import LiquidityBook.Text

/-! How each command is read from its arguments. -/
namespace LiquidityBook.Command

def splitColon? (s : String) : Option (String × String) :=
  match s.toList.dropWhile (· != ':') with
  | [] => none
  | _ :: behind => some (String.ofList (s.toList.takeWhile (· != ':')), String.ofList behind)

/-- A bin and an amount, written `BIN_ID:AMOUNT`. -/
def readPosition? (s : String) : Option (UInt32 × String) := do
  let (id, amount) ← splitColon? s
  let n ← Digits.readNat? (Text.trimChars id.toList)
  if n < 2 ^ 32 then some (UInt32.ofNat n, Text.trim amount) else none

/-- A contract, written `ADDRESS:CODE_HASH`. -/
def readContract? (s : String) : Option ContractRef := do
  let (address, codeHash) ← splitColon? s
  if address.isEmpty || codeHash.isEmpty then none else some ⟨address, codeHash⟩

/-- The name of a spread's form. -/
inductive ShapeName where
  | spot
  | uniform
  | curve

def readShapeName? : String → Option ShapeName
  | "spot" => some .spot
  | "uniform" => some .uniform
  | "curve" => some .curve
  | _ => none

def ShapeName.shape (radius : UInt32) (sigma : Float) : ShapeName → Shape
  | spot => .spot
  | uniform => .uniform radius
  | curve => .curve radius sigma

open Given OptionForm

def readScale? (g : Given) : Option AmountScale := do
  match ← optional some "token" g, ← optional readUInt8? "decimals" g with
  | some name, none => some (.ofToken name)
  | none, some n => some (.decimals n)
  | _, _ => none

def readPair? (g : Given) : Option PairChoice := do
  return ⟨← required some "token-x" g, ← required some "token-y" g, ← optional readUInt16? "bin-step" g⟩

/-- A bin and a price are not given together. -/
def readActive? (g : Given) : Option (Option ActiveBin) := do
  match ← optional readUInt32? "active-id" g, ← optional Binary64.read? "price" g with
  | some n, none => some (some (.id n))
  | none, some p => some (some (.price p))
  | none, none => some none
  | _, _ => none

def readAdd? (g : Given) : Option AddLiquidity := do
  let radius ← defaulted readUInt32? "radius" 5 g
  let sigma ← defaulted Binary64.read? "sigma" 2.0 g
  let shape ← defaulted readShapeName? "shape" .uniform g
  return {
    pair := ← readPair? g
    active := ← readActive? g
    amountX := ← defaulted some "amount-x" "0" g
    amountY := ← defaulted some "amount-y" "0" g
    shape := shape.shape radius sigma
    slippageBps := ← optional readUInt16? "slippage-bps" g
    idSlippage := ← optional readUInt32? "id-slippage" g
    deadline := ← optional readUInt64? "deadline" g }

def readRemove? (g : Given) : Option RemoveLiquidity := do
  let positions ← (g.values "position").mapM readPosition?
  if positions.isEmpty then none
  return {
    pair := ← readPair? g
    positions
    expectedX := ← defaulted some "expected-x" "0" g
    expectedY := ← defaulted some "expected-y" "0" g
    slippageBps := ← optional readUInt16? "slippage-bps" g
    deadline := ← optional readUInt64? "deadline" g }

def readSwap? (g : Given) : Option Swap := do
  return {
    swapForY := g.has "swap-for-y"
    recipient := ← optional some "to" g
    amountReceived := ← required some "amount-received" g
    token := ← required some "token" g
    pairContract := ← optional readContract? "pair-contract" g }

/-- A command by its name, with its arguments and their meaning. -/
structure Verb where
  name : String
  form : Form
  read : Given → Option Command

def textOption (name : String) : OptionForm := single name some

def binStepOption : OptionForm := single "bin-step" readUInt16?

def tokensOption : OptionForm := many "tokens" 2 some

def scaleOptions : List OptionForm := [textOption "token", single "decimals" readUInt8?]

def pairOptions : List OptionForm := [textOption "token-x", textOption "token-y", binStepOption]

def activeOptions : List OptionForm :=
  [single "active-id" readUInt32?, single "price" Binary64.read?]

def sendOptions : List OptionForm :=
  [single "slippage-bps" readUInt16?, single "deadline" readUInt64?]

def anyText : String → Bool := fun _ => true

def verbs : List Verb := [
  ⟨"price-to-id", ⟨[binStepOption, tokensOption], [fun s => (Binary64.read? s).isSome]⟩, fun g => do
    return .priceToId (← positional Binary64.read? 0 g) (← optional readUInt16? "bin-step" g)
      (g.values "tokens")⟩,
  ⟨"id-to-price", ⟨[binStepOption, tokensOption], [fun s => (readUInt32? s).isSome]⟩, fun g => do
    return .idToPrice (← positional readUInt32? 0 g) (← optional readUInt16? "bin-step" g)
      (g.values "tokens")⟩,
  ⟨"to-machine", ⟨scaleOptions, [anyText]⟩, fun g => do
    return .toMachine (← positional some 0 g) (← readScale? g)⟩,
  ⟨"to-human", ⟨single "precision" readUInt8? :: scaleOptions, [anyText]⟩, fun g => do
    return .toHuman (← positional some 0 g) (← readScale? g) (← optional readUInt8? "precision" g)⟩,
  ⟨"add-liquidity", ⟨pairOptions ++ activeOptions ++ sendOptions ++
      [textOption "amount-x", textOption "amount-y", single "shape" readShapeName?, single "radius" readUInt32?,
        single "sigma" Binary64.read?, single "id-slippage" readUInt32?], []⟩,
    fun g => (readAdd? g).map .addLiquidity⟩,
  ⟨"remove-liquidity", ⟨pairOptions ++ sendOptions ++
      [many "position" 1 readPosition?, textOption "expected-x", textOption "expected-y"], []⟩,
    fun g => (readRemove? g).map .removeLiquidity⟩,
  ⟨"swap", ⟨[flag "swap-for-y", textOption "to", textOption "amount-received", textOption "token",
      single "pair-contract" readContract?], []⟩, fun g => (readSwap? g).map .swap⟩,
  ⟨"create-pair", ⟨pairOptions ++ activeOptions, []⟩, fun g => do
    return .createPair (← readPair? g) (← readActive? g)⟩,
  ⟨"pair-query", ⟨pairOptions, []⟩, fun g => (readPair? g).map .pairQuery⟩,
  ⟨"preset-query", ⟨[binStepOption], []⟩, fun g => (optional readUInt16? "bin-step" g).map .presetQuery⟩,
  ⟨"config", ⟨[], []⟩, fun _ => some .config⟩]

end LiquidityBook.Command
