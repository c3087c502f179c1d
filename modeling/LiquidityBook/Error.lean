import LiquidityBook.Decimal.Basic

/-! What can go wrong, as causes, and the one wording of each. -/
namespace LiquidityBook

/-- Why a text is no token amount. -/
inductive AmountFault where
  | negative
  | malformed
  | notInteger
  | scaleOverflow (decimals : Nat)
  | integerPartOverflow
  | overflow
  /-- In the words of whoever reports it. -/
  | stated (reason : String)
deriving DecidableEq

/-- Why one side of a spread cannot be deposited. -/
inductive WeightFault where
  | outsideUnit (weight : Decimal)
  | wrongSum (sum : Decimal)
  | stated (detail : String)
deriving DecidableEq

/-- What a message, an answer or a token list lacks. -/
inductive SchemaFault where
  | weightOutsideUnit (weight : Decimal)
  | distributionAboveOne (value : Nat)
  | distributionNotInteger (text : String)
  /-- The text of the standard deviation as it was given. -/
  | curveWidth (sigma : String)
  | curveWeight (offset : Nat)
  | radiusTooLarge (radius : Nat)
  | binRepeated (id : Nat)
  | addWithoutBins
  | removeWithoutBins
  | idsWithoutAmounts (ids amounts : Nat)
  | zeroDeadline
  | swapWithoutRecipient
  | malformedViewingKey
  | balanceWithoutAddress
  | balanceWithoutKey
  /-- The answer to a query of this kind does not have the schema of such answers. -/
  | unexpectedAnswer (kind : String)
  | otherBinStep (found expected : Nat)
  | addressRepeated (address : String)
  | symbolRepeated (symbol holder address : String)
  | stated (detail : String)
deriving DecidableEq

/-- Every failure of the client. -/
inductive Error where
  | invalidAmount (input : String) (fault : AmountFault)
  /-- The price as its text. -/
  | invalidPrice (price : String)
  | invalidBinStep (binStep : Nat)
  | binIdOutOfRange (id : Int)
  | invalidSlippage (bps : Nat)
  | emptyIntent
  | weightMismatch (side : Char) (fault : WeightFault)
  | spreadEmpty
  | duplicateBinOffset (offset : Int)
  | schemaViolation (fault : SchemaFault)
  | keyNotFound (token account : String)
  | tokenNotRegistered (token : String)
  | contractRejected (code : Nat) (rawLog : String) (gasUsed : Nat)
  | transport (detail : String)
  | requestAbandoned (token : String)
deriving DecidableEq

instance {α : Type} [DecidableEq α] : DecidableEq (Except Error α)
  | .ok a, .ok b => if h : a = b then isTrue (by rw [h]) else isFalse (by simpa using h)
  | .error a, .error b => if h : a = b then isTrue (by rw [h]) else isFalse (by simpa using h)
  | .ok _, .error _ => isFalse nofun
  | .error _, .ok _ => isFalse nofun

def AmountFault.message : AmountFault → String
  | negative => "negative amounts are not allowed"
  | malformed => "expected digits with at most one decimal point"
  | notInteger => "expected a non-negative integer string"
  | scaleOverflow decimals => s!"10^{decimals} overflows 256 bits"
  | integerPartOverflow => "integer part overflows 256 bits"
  | overflow => "amount overflows 256 bits"
  | stated reason => reason

def WeightFault.message : WeightFault → String
  | outsideUnit weight => s!"weight {weight.text} is outside [0, 1]"
  | wrongSum sum => s!"weights sum to {sum.text}, expected 1 within 0.000001"
  | stated detail => detail

def SchemaFault.message : SchemaFault → String
  | weightOutsideUnit weight => s!"weight {weight.text} is outside [0, 1]"
  | distributionAboveOne value => s!"distribution {value} exceeds 1000000000000000000"
  | distributionNotInteger text => s!"distribution '{text}' is not an integer"
  | curveWidth sigma => s!"curve sigma {sigma} must be finite and positive"
  | curveWeight offset => s!"curve weight at offset {offset} is not finite"
  | radiusTooLarge radius => s!"spread radius {radius} must be below 8388608"
  | binRepeated id => s!"bin {id} listed more than once"
  | addWithoutBins => "add_liquidity requires at least one bin"
  | removeWithoutBins => "remove_liquidity requires at least one bin id"
  | idsWithoutAmounts ids amounts => s!"remove_liquidity has {ids} ids but {amounts} amounts"
  | zeroDeadline => "deadline must be non-zero"
  | swapWithoutRecipient => "swap requires a recipient address"
  | malformedViewingKey => "viewing key must be 64 hex characters"
  | balanceWithoutAddress => "balance query requires an address"
  | balanceWithoutKey => "balance query requires a viewing key"
  | unexpectedAnswer kind => s!"unexpected {kind} answer"
  | otherBinStep found expected => s!"factory returned bin step {found} for a {expected} pair"
  | addressRepeated address => s!"token {address} registered twice"
  | symbolRepeated symbol holder address => s!"symbol {symbol} used by both {holder} and {address}"
  | stated detail => detail

namespace Error

def message : Error → String
  | invalidAmount input fault => s!"Invalid amount '{input}': {fault.message}"
  | invalidPrice price => s!"Invalid price {price}: must be finite and strictly positive"
  | invalidBinStep binStep => s!"Invalid bin step {binStep}: must be greater than zero"
  | binIdOutOfRange id => s!"Bin id {id} is outside [0, 2^24)"
  | invalidSlippage bps => s!"Invalid slippage {bps} bps: must be at most 10000"
  | emptyIntent => "Liquidity intent deposits nothing: both amounts are zero"
  | weightMismatch side fault => s!"Weight mismatch on side {side}: {fault.message}"
  | spreadEmpty => "Bin spread is empty"
  | duplicateBinOffset offset => s!"Bin offset {offset} appears more than once in the spread"
  | schemaViolation fault => s!"Schema violation: {fault.message}"
  | keyNotFound token account => s!"No viewing key cached for token {token} and account {account}"
  | tokenNotRegistered token => s!"Token {token} is not registered"
  | contractRejected code rawLog gasUsed =>
    s!"Contract rejected transaction (code {code}, gas used {gasUsed}): {rawLog}"
  | transport detail => s!"Transport error: {detail}"
  | requestAbandoned token => s!"Viewing key request for token {token} was abandoned before completion"

/-- Whether validation failed before anything was sent. -/
def isLocal : Error → Bool
  | contractRejected .. | transport _ | requestAbandoned _ => false
  | _ => true

/-- Fails with this error where the condition holds. -/
def when (e : Error) (p : Prop) [Decidable p] : Except Error Unit := if p then .error e else .ok ()

theorem when_eq_ok_iff {e : Error} {p : Prop} [Decidable p] {u : Unit} : e.when p = .ok u ↔ ¬p := by
  unfold when
  split <;> simp [*]

theorem when_eq_error_iff {e e' : Error} {p : Prop} [Decidable p] : e.when p = .error e' ↔ p ∧ e' = e := by
  unfold when
  split <;> simp [*, eq_comm]

/-- Two steps succeed where the first one does, and the second on its result. -/
theorem bind_eq_ok_iff {ε α β : Type} {x : Except ε α} {f : α → Except ε β} {b : β} :
    (x >>= f) = .ok b ↔ ∃ a, x = .ok a ∧ f a = .ok b := by
  cases x <;> simp [bind, Except.bind]

/-- Two steps fail where the first one does, or the second on its result. -/
theorem bind_eq_error_iff {ε α β : Type} {x : Except ε α} {f : α → Except ε β} {e : ε} :
    (x >>= f) = .error e ↔ x = .error e ∨ ∃ a, x = .ok a ∧ f a = .error e := by
  cases x <;> simp [bind, Except.bind]

/-- A fold that can fail does so at one element, with the error of the step there. -/
theorem foldlM_eq_error_iff {α β : Type} {f : β → α → Except Error β} {l : List α} {b : β} {e : Error} :
    l.foldlM f b = .error e ↔
      ∃ before a after mid, l = before ++ a :: after ∧ before.foldlM f b = .ok mid ∧ f mid a = .error e := by
  induction l generalizing b with
  | nil => exact iff_of_false nofun (by simp)
  | cons a l ih =>
    rw [List.foldlM_cons, bind_eq_error_iff]
    constructor
    · rintro (h | ⟨next, hnext, h⟩)
      · exact ⟨[], a, l, b, rfl, rfl, h⟩
      · obtain ⟨before, a', after, mid, rfl, hmid, herr⟩ := ih.1 h
        refine ⟨a :: before, a', after, mid, rfl, ?_, herr⟩
        rw [List.foldlM_cons, hnext]
        exact hmid
    · rintro ⟨before, a', after, mid, hl, hmid, herr⟩
      cases before with
      | nil =>
        obtain ⟨rfl, rfl⟩ := List.cons.inj hl
        cases hmid
        exact .inl herr
      | cons c before =>
        obtain ⟨rfl, rfl⟩ := List.cons.inj hl
        rw [List.foldlM_cons] at hmid
        obtain ⟨next, hnext, hmid⟩ := bind_eq_ok_iff.1 hmid
        exact .inr ⟨next, hnext, ih.2 ⟨before, a', after, mid, rfl, hmid, herr⟩⟩

end Error

end LiquidityBook
