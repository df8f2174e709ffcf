import Intake.Bytes
import Intake.Numeral.Binary
/-!
# The shortest decimal text of a binary number

A binary number is written with the fewest digits that read back as the
same number; of two such decimals the nearer one, and of two equally near
the greater. The text is positional whatever the exponent, without a
trailing point or zero: `1`, `0.1`, `-0`, and a 1 with three hundred zeros.

The search runs over decimal grids from coarse to fine. The reals that
round to the number form an interval; if a grid has a point in it, one of
the two grid points beside the number is in it, so testing those two is
enough, and the first grid with a hit has the fewest digits.
-/

namespace Intake.Numeral

/-- A decimal: `digits` times ten to the power of `exponent`. -/
structure Decimal where
  digits : Nat
  exponent : Int
  deriving DecidableEq, Repr

/-- The reals that round to a number, over one denominator: from `low` to
`high`, the ends included or not, around `value`. -/
structure Interval where
  low : Nat
  value : Nat
  high : Nat
  den : Nat
  closed : Bool
  deriving Repr

namespace Interval

/-- The interval of a finite bit pattern. -/
def ofBits (f : Format) (bits : Nat) : Interval :=
  let u := f.units bits
  let g := f.gap bits
  { low := 4 * u - (if f.isNarrowBelow bits then g else 2 * g)
    value := 4 * u
    high := 4 * u + 2 * g
    den := 4 * Nat.pow 2 f.scale
    closed := bits % 2 == 0 }

/-- Whether `n` grid steps of `step` lie at or above the lower end. -/
def aboveLow (i : Interval) (point : Nat) : Bool :=
  i.low < point || (i.closed && i.low == point)

/-- Whether a point lies at or below the upper end. -/
def belowHigh (i : Interval) (point : Nat) : Bool :=
  point < i.high || (i.closed && point == i.high)

/-- The best point of the grid of step `10 ^ exponent`, as a multiple of
the step, if the interval has one. -/
def onGrid (i : Interval) (exponent : Int) : Option Nat :=
  let up := Nat.pow 10 (-exponent).toNat
  let j : Interval := { i with low := i.low * up, value := i.value * up, high := i.high * up }
  let step := i.den * Nat.pow 10 exponent.toNat
  let below := j.value / step
  let above := below + 1
  match j.aboveLow (below * step), j.belowHigh (above * step) with
  | true, true => if j.value - below * step < above * step - j.value then some below else some above
  | true, false => some below
  | false, true => some above
  | false, false => none

/-- The first hit on the grids from `exponent` downwards, `fuel` of them
at most. -/
def search (i : Interval) : Nat → Int → Option Decimal
  | 0, _ => none
  | fuel + 1, exponent =>
    match i.onGrid exponent with
    | some digits => some ⟨digits, exponent⟩
    | none => i.search fuel (exponent - 1)

/-- An exponent whose grid step is greater than the number, and by less
than a factor of a thousand. -/
def startExponent (i : Interval) : Int :=
  ((i.value.log2 : Int) - (i.den.log2 : Int)) * 30103 / 100000 + 2

end Interval

/-- The shortest decimal of a finite bit pattern that is not zero. -/
def shortest (f : Format) (bits : Nat) : Decimal :=
  let i := Interval.ofBits f bits
  (i.search 40 i.startExponent).getD ⟨0, 0⟩

/-- The decimal digits of a number. -/
def digits (n : Nat) : List Char := (toString n).toList

/-- Digits, with zeros before them up to a width. -/
def padded (width n : Nat) : List Char :=
  let ds := digits n
  List.replicate (width - ds.length) '0' ++ ds

/-- A decimal written out in full. -/
def positional (d : Decimal) : List Char :=
  if 0 ≤ d.exponent then
    digits d.digits ++ List.replicate d.exponent.toNat '0'
  else
    let places := (-d.exponent).toNat
    digits (d.digits / Nat.pow 10 places) ++ '.' :: padded places (d.digits % Nat.pow 10 places)

/-- The text of a bit pattern of a format. -/
def Format.text (f : Format) (bits : Nat) : String :=
  let minus := if f.isNegative bits then ['-'] else []
  if f.exponentField bits = f.topExponent then
    if f.fractionField bits = 0 then String.ofList (minus ++ ['i', 'n', 'f']) else "NaN"
  else if f.units bits = 0 then String.ofList (minus ++ ['0'])
  else String.ofList (minus ++ positional (shortest f bits))

/-- The shortest text that reads back as the number. -/
def Binary64.text (x : Binary64) : String := binary64.text x.bits.toNat

/-- A number that is not negative, rounded to so many decimal places, a
half of its exact value going to the even neighbour. -/
def Binary64.fixed (x : Binary64) (places : Nat) : String :=
  let n := Format.roundEven (x.units * Nat.pow 10 places) (Nat.pow 2 binary64.scale)
  String.ofList (digits (n / Nat.pow 10 places) ++ '.' :: padded places (n % Nat.pow 10 places))

end Intake.Numeral
