/-!
The shortest decimal of a binary floating-point number. A finite double is `m · 2 ^ q`, and the
reals nearer to it than to any other double form an interval, whose ends belong to it exactly when
`m` is even. The shortest decimal is the point of that interval on the coarsest decimal grid that
meets it; of two such points the nearer one. Which one it is when both are equally near differs from
one way of writing to the other and is a `Tie`.
-/

namespace RecordGateway.Decimal

/-- A finite positive double, as `significand · 2 ^ exponent`. -/
structure Binary where
  significand : Nat
  exponent : Int
deriving DecidableEq, Repr

/-- The weight of the leading bit of a double, which its fraction field leaves out. -/
def leadingBit : Nat := 0x10000000000000

/-- What the bits of a double stand for. -/
inductive Number where
  | nan
  | infinity (negative : Bool)
  | zero (negative : Bool)
  | finite (negative : Bool) (magnitude : Binary)
deriving DecidableEq, Repr

/-- Reads the sign, exponent and fraction fields of a double. -/
def Number.ofBits (bits : UInt64) : Number :=
  let n := bits.toNat
  let negative := n.testBit 63
  let field : Nat := n / leadingBit % 2048
  let fraction : Nat := n % leadingBit
  if field = 2047 then
    if fraction = 0 then .infinity negative else .nan
  else if field = 0 then
    if fraction = 0 then .zero negative else .finite negative ⟨fraction, -1074⟩
  else
    .finite negative ⟨leadingBit + fraction, (field : Int) - 1075⟩

/-- A positive decimal: the digits of `digits` with the last of them worth `10 ^ exponent`. -/
structure Scaled where
  digits : Nat
  exponent : Int
deriving DecidableEq, Repr

/-- `4 · m · 2 ^ q` over `10 ^ e` as a fraction of natural numbers. The factor four makes the ends
of the rounding interval whole multiples of the same unit. -/
def gridUnit (q e : Int) : Nat × Nat :=
  (Nat.pow 2 q.toNat * Nat.pow 10 (-e).toNat, 4 * Nat.pow 2 (-q).toNat * Nat.pow 10 e.toNat)

/-- The lower and upper end of the rounding interval, in quarters of the unit `2 ^ q`. Below the
smallest significand of an exponent the doubles lie twice as dense. -/
def Binary.interval (b : Binary) : Nat × Nat :=
  let low := if b.significand = leadingBit ∧ b.exponent ≠ -1074 then 1 else 2
  (4 * b.significand - low, 4 * b.significand + 2)

/-- Whether `k · 10 ^ e` lies in the rounding interval of a double. -/
def Binary.covers (b : Binary) (k : Nat) (e : Int) : Bool :=
  let (num, den) := gridUnit b.exponent e
  let (low, high) := b.interval
  if b.significand % 2 = 0 then low * num ≤ k * den && k * den ≤ high * num
  else low * num < k * den && k * den < high * num

/-- Which of two equally near decimals is written. -/
inductive Tie where
  | upper
  /-- The one whose last digit is even. -/
  | even
deriving DecidableEq, Repr

/-- The point of the grid of multiples of `10 ^ e` that is the shortest decimal, if that grid meets
the rounding interval. -/
def Binary.onGrid? (b : Binary) (tie : Tie) (e : Int) : Option Scaled :=
  let (num, den) := gridUnit b.exponent e
  let value := 4 * b.significand * num
  let below := value / den
  let toBelow := value - below * den
  let toAbove := (below + 1) * den - value
  let nearBelow := toBelow < toAbove || toBelow = toAbove && tie = .even && below % 2 = 0
  match b.covers below e && below ≠ 0, b.covers (below + 1) e with
  | true, true => some ⟨if nearBelow then below else below + 1, e⟩
  | true, false => some ⟨below, e⟩
  | false, true => some ⟨below + 1, e⟩
  | false, false => none

/-- The first grid, from coarse to fine, that meets the rounding interval. -/
def Binary.firstOnGrid (b : Binary) (tie : Tie) : Nat → Int → Scaled
  | 0, e => (b.onGrid? tie e).getD ⟨b.significand, e⟩
  | fuel + 1, e => (b.onGrid? tie e).getD (b.firstOnGrid tie fuel (e - 1))

/-- The shortest decimal of a finite double. The coarsest grid looked at is far above every double
of that exponent, and the finest is far inside every rounding interval. -/
def Binary.shortest (b : Binary) (tie : Tie) : Scaled :=
  let top : Int := (b.exponent + 54) * 30103 / 100000 + 1
  b.firstOnGrid tie 40 top

end RecordGateway.Decimal
