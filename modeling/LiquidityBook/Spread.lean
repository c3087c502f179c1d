import LiquidityBook.Binary64.Text
import LiquidityBook.Decimal.Rounded
import LiquidityBook.Error

/-! How a deposit is spread over the bins around the active one. Token Y goes into the bins below
it and token X into the bins above; each side of a spread adds up to one. -/
namespace LiquidityBook

/-- The shares of both sides that one bin gets, at an offset from the active bin. -/
structure BinWeight where
  offset : Int32
  weightX : Decimal
  weightY : Decimal
deriving DecidableEq, Inhabited

/-- A spread by its form. -/
inductive Shape where
  /-- All in the active bin. -/
  | spot
  /-- The same share in each bin up to `radius` bins away. -/
  | uniform (radius : UInt32)
  /-- Shares along a bell curve whose standard deviation is `sigma` bins. -/
  | curve (radius : UInt32) (sigma : Float)

namespace Shape

/-- No spread reaches further than there are bins on one side of the center. -/
def checkRadius (radius : UInt32) : Except Error Nat :=
  if radius.toNat < 2 ^ 23 then .ok radius.toNat
  else .error (.schemaViolation (.radiusTooLarge radius.toNat))

/-- The bins above the active one, from shares at the distances one, two and so on. -/
def above (side : List Decimal) : List BinWeight :=
  (side.zipIdx 1).map fun (w, d) => ⟨Int32.ofInt d, w, .zero⟩

/-- The bins below the active one, the furthest first. -/
def below (side : List Decimal) : List BinWeight :=
  ((side.zipIdx 1).map fun (w, d) => ⟨Int32.ofInt (-d), .zero, w⟩).reverse

/-- A spread from the shares of one side. The active bin gets what they leave. -/
def symmetric (side : List Decimal) : List BinWeight :=
  let center := Decimal.sub .one (Decimal.sum side)
  below side ++ ⟨0, center, center⟩ :: above side

/-- The spread of a radius and the side that is built for it. Nothing is built for a radius that is too large. -/
def around (radius : UInt32) (build : Nat → Except Error (List Decimal)) : Except Error (List BinWeight) := do
  return symmetric (← build (← checkRadius radius))

def density (sigma : Float) (distance : Nat) : Float :=
  let z := distance.toFloat / sigma
  Float.exp (-0.5 * (z * z))

/-- The curve's shares at the distances one to `radius`. The active bin counts half on each side. -/
def curveSide (radius : Nat) (sigma : Float) : Except Error (List Decimal) :=
  let distances := List.range' 1 radius
  let total := density sigma 0 / 2.0 + (distances.map (density sigma)).foldl (· + ·) 0.0
  distances.mapM fun d =>
    match Decimal.ofFloat? (density sigma d / total) with
    | some w => .ok (w.round 18)
    | none => .error (.schemaViolation (.curveWeight d))

def weights : Shape → Except Error (List BinWeight)
  | spot => .ok [⟨0, .one, .one⟩]
  | uniform radius =>
    around radius fun r => .ok (List.replicate r (Decimal.ofRatio 2 (2 * r + 1)))
  | curve radius sigma =>
    if sigma.isFinite && 0.0 < sigma then around radius (curveSide · sigma)
    else .error (.schemaViolation (.curveWidth (Binary64.text sigma)))

end Shape

end LiquidityBook
