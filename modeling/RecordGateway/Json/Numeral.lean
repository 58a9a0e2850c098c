/-!
Numbers as a document spells them. A numeral is an integer only when it has neither a fraction nor
an exponent. As a floating-point number it is the integer of its leading digits, as many as fit in
sixty-four bits, rounded to a double and then multiplied or divided by one power of ten that is
rounded too; so the result can differ from the nearest double in its last bit.
-/

namespace RecordGateway.Json

/-- A number as it is written. -/
structure Numeral where
  negative : Bool
  whole : List Nat
  fraction : Option (List Nat)
  exponent : Option Int
deriving DecidableEq, Repr

/-- The number that a list of digits spells. -/
def digitsValue (digits : List Nat) : Nat :=
  digits.foldl (fun acc digit => 10 * acc + digit) 0

/-- The integer that the numeral spells. A negative zero is no integer. -/
def Numeral.toInt? (n : Numeral) : Option Int :=
  match n.fraction, n.exponent with
  | none, none =>
    let magnitude := digitsValue n.whole
    if n.negative then
      if magnitude = 0 then none else some (-magnitude)
    else
      some magnitude
  | _, _ => none

/-- The integer that the numeral spells, if it lies between the bounds. -/
def Numeral.toIntWithin? (n : Numeral) (least greatest : Int) : Option Int :=
  n.toInt?.filter fun value => least ≤ value ∧ value ≤ greatest

def maxSignificand : Nat := UInt64.size - 1

/-- Takes the digits before the point into the significand. From the first digit that does not fit
every digit counts one power of ten instead. -/
def takeWhole (significand : Nat) (dropped : Nat) : List Nat → Nat × Nat
  | [] => (significand, dropped)
  | digit :: rest =>
    let next := 10 * significand + digit
    if dropped = 0 ∧ next ≤ maxSignificand then takeWhole next 0 rest
    else takeWhole significand (dropped + 1) rest

/-- Takes the digits after the point into the significand, up to the first that does not fit, and
counts them. -/
def takeFraction (significand : Nat) (taken : Nat) : List Nat → Nat × Nat
  | [] => (significand, taken)
  | digit :: rest =>
    let next := 10 * significand + digit
    if next ≤ maxSignificand then takeFraction next (taken + 1) rest else (significand, taken)

/-- The double nearest to a power of ten. -/
def powerOfTen (exponent : Nat) : Float :=
  Float.ofScientific 1 false exponent

/-- Multiplies by a power of ten, in steps of at most `10 ^ 308`; `none` if the result is too
large. -/
def scale : Nat → Float → Int → Option Float
  | 0, value, _ => some value
  | fuel + 1, value, exponent =>
    if 0 ≤ exponent then
      if exponent ≤ 308 then
        let scaled := value * powerOfTen exponent.toNat
        if scaled.isInf then none else some scaled
      else if value == 0.0 then some value
      else none
    else if -308 ≤ exponent then
      some (value / powerOfTen exponent.natAbs)
    else if value == 0.0 then some value
    else scale fuel (value / powerOfTen 308) (exponent + 308)

/-- The floating-point number that the numeral spells; `none` if it is too large. -/
def Numeral.toFloat? (n : Numeral) : Option Float := do
  let (significand, dropped) := takeWhole 0 0 n.whole
  let (significand, taken) := takeFraction significand 0 (n.fraction.getD [])
  let written := n.exponent.getD 0
  let magnitude ←
    if written.natAbs ≤ 2147483647 then
      scale 8 significand.toUInt64.toFloat (dropped - taken + written)
    else if significand ≠ 0 ∧ 0 < written then none
    else some 0.0
  return if n.negative then -magnitude else magnitude

end RecordGateway.Json
