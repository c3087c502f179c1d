import LiquidityBook.Digits
import LiquidityBook.Error
import LiquidityBook.Uint

/-! Token amounts in human units and in machine units, where one human unit is `10 ^ decimals`
machine units. Both directions work on digits and are exact. -/
namespace LiquidityBook.Amount

/-- The number of machine units in a human unit. -/
def unit? (decimals : Nat) : Option Uint256 := Uint.ofNat? 256 (10 ^ decimals)

/-- Digits around at most one point, with a digit on at least one side. -/
def parts? (cs : List Char) : Option (List Char × List Char) :=
  let whole := cs.takeWhile (· != '.')
  let fraction := (cs.dropWhile (· != '.')).drop 1
  if whole.all Char.isDigit && fraction.all Char.isDigit && !(whole.isEmpty && fraction.isEmpty) then
    some (whole, fraction)
  else none

/-- The number of 256 bits that a run of digits denotes; the empty run is zero. -/
def ofDigits? (digits : List Char) : Option Uint256 :=
  if digits.all Char.isDigit then Uint.ofNat? 256 (Digits.value digits) else none

/-- Machine units of a human amount; digits behind the last decimal are cut off. Every step has to fit 256 bits,
and a fraction that cannot be read would count as zero. -/
def toMachine (amount : String) (decimals : Nat) : Except Error Uint256 :=
  let refuse := fun fault => Except.error (.invalidAmount amount fault)
  let cs := amount.toList
  if cs.head? = some '-' then refuse .negative
  else
    match parts? cs with
    | none => refuse .malformed
    | some (whole, fraction) =>
      match unit? decimals with
      | none => refuse (.scaleOverflow decimals)
      | some unit =>
        match ofDigits? whole with
        | none => refuse .integerPartOverflow
        | some units =>
          match Uint.ofNat? 256 (units.toNat * unit.toNat) with
          | none => refuse .overflow
          | some scaled =>
            let rest := (ofDigits? (Digits.padRight decimals (fraction.take decimals))).getD .zero
            match Uint.ofNat? 256 (scaled.toNat + rest.toNat) with
            | none => refuse .overflow
            | some machine => .ok machine

/-- A number below `10 ^ places` in exactly that many digits. -/
def fractionDigits (places n : Nat) : List Char :=
  if places = 0 then [] else Digits.padLeft places (Digits.ofNat n)

def join (whole : Nat) (fraction : List Char) : String :=
  String.ofList (Digits.ofNat whole ++ if fraction.isEmpty then [] else '.' :: fraction)

/-- The text of a machine amount with fewer fractional digits than it has decimals, rounded half up. The comparison
keeps to 256 bits, and a power that is beyond them would count as one. -/
def rounded (value : Uint256) (decimals places : Nat) : String :=
  let dropped := (unit? (decimals - places)).getD (.clamp 256 1)
  let kept := value.toNat / dropped.toNat
  let rest := value.toNat % dropped.toNat
  let nearest := if dropped.toNat - rest ≤ rest then kept + 1 else kept
  let unit := (unit? places).getD (.clamp 256 1)
  join (nearest / unit.toNat) (fractionDigits places (nearest % unit.toNat))

/-- The human text of a machine amount: without a precision as short as is exact, and otherwise
with that many fractional digits. -/
def format (value : Uint256) (decimals : Nat) (precision : Option Nat) : Except Error String :=
  match unit? decimals with
  | none => .error (.invalidAmount value.text (.scaleOverflow decimals))
  | some unit =>
    let whole := value.toNat / unit.toNat
    let fraction := fractionDigits decimals (value.toNat % unit.toNat)
    match precision with
    | none => .ok (join whole (Digits.trimTrailingZeros fraction))
    | some places =>
      if decimals ≤ places then .ok (join whole (Digits.padRight places fraction))
      else .ok (rounded value decimals places)

def toHuman (amount : String) (decimals : Nat) (precision : Option Nat) : Except Error String :=
  match Digits.value? amount.toList with
  | none => .error (.invalidAmount amount .notInteger)
  | some n =>
    match Uint.ofNat? 256 n with
    | none => .error (.invalidAmount amount .overflow)
    | some value => format value decimals precision

end LiquidityBook.Amount
