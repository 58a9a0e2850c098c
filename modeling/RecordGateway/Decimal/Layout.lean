import RecordGateway.Decimal.Shortest

/-!
Ways to write a shortest decimal. Each is one `Layout`: which magnitudes are written out in full,
whether whole numbers keep a fraction, which of two equally near decimals is taken, and how
exponents and the special values look.
-/

namespace RecordGateway.Decimal

/-- How to write a floating-point number. The magnitude of a number is the exponent of its leading
digit; outside the two bounds it is written with an exponent. -/
structure Layout where
  least : Option Int
  greatest : Option Int
  keepFraction : Bool
  plusSign : Bool
  tie : Tie
  infinity : String
  nan : String

/-- Whether a number of the given magnitude is written out in full. -/
def Layout.inFull (l : Layout) (magnitude : Int) : Bool :=
  l.least.all (· ≤ magnitude) && l.greatest.all (magnitude ≤ ·)

/-- The digits of a number in base ten. -/
def digitsOf (n : Nat) : List Char :=
  Nat.toDigits 10 n

/-- A decimal written out in full. -/
def Scaled.inFull (d : Scaled) (keepFraction : Bool) : List Char :=
  let digits := digitsOf d.digits
  let whole := digits.length + d.exponent
  if 0 ≤ d.exponent then
    digits ++ List.replicate d.exponent.toNat '0' ++ (if keepFraction then ['.', '0'] else [])
  else if 0 < whole then
    digits.take whole.toNat ++ ['.'] ++ digits.drop whole.toNat
  else
    ['0', '.'] ++ List.replicate (-whole).toNat '0' ++ digits

/-- A decimal written as a number between one and ten and an exponent. -/
def Scaled.withExponent (d : Scaled) (magnitude : Int) (plusSign : Bool) : List Char :=
  let mantissa := match digitsOf d.digits with
    | [] => []
    | [digit] => [digit]
    | digit :: rest => digit :: '.' :: rest
  let sign := if magnitude < 0 then ['-'] else if plusSign then ['+'] else []
  mantissa ++ ['e'] ++ sign ++ digitsOf magnitude.natAbs

/-- The text of a positive decimal. -/
def Layout.magnitude (l : Layout) (d : Scaled) : List Char :=
  let magnitude := (digitsOf d.digits).length + d.exponent - 1
  if l.inFull magnitude then d.inFull l.keepFraction
  else d.withExponent magnitude l.plusSign

def Layout.number (l : Layout) : Number → String
  | .nan => l.nan
  | .infinity negative => if negative then "-" ++ l.infinity else l.infinity
  | .zero negative =>
    (if negative then "-" else "") ++ (if l.keepFraction then "0.0" else "0")
  | .finite negative magnitude =>
    (if negative then "-" else "") ++ String.ofList (l.magnitude (magnitude.shortest l.tie))

/-- The text of the double with the given bits. -/
def Layout.write (l : Layout) (bits : UInt64) : String :=
  l.number (.ofBits bits)

end RecordGateway.Decimal
