/-!
# Binary floating point

The numbers of the binary interchange formats, as bit patterns. Every
finite one is a whole multiple of the format's least positive number, so
its magnitude is a natural number of such units (`Format.units`); exact
arithmetic on fractions of natural numbers then says which number is
nearest to a given value (`Format.nearest`), ties going to the even bit
pattern.
-/

namespace Intake.Numeral

/-- A binary interchange format: so many stored fraction bits and so many
exponent bits. -/
structure Format where
  fraction : Nat
  exponent : Nat
  deriving DecidableEq, Repr

/-- The 64-bit format. -/
def binary64 : Format := ⟨52, 11⟩

/-- The 32-bit format. -/
def binary32 : Format := ⟨23, 8⟩

namespace Format

/-- The exponent field of a bit pattern. -/
def exponentField (f : Format) (bits : Nat) : Nat :=
  bits / Nat.pow 2 f.fraction % Nat.pow 2 f.exponent

/-- The fraction field of a bit pattern. -/
def fractionField (f : Format) (bits : Nat) : Nat := bits % Nat.pow 2 f.fraction

/-- Whether the sign bit is set. -/
def isNegative (f : Format) (bits : Nat) : Bool :=
  bits / Nat.pow 2 (f.fraction + f.exponent) % 2 == 1

/-- The exponent field of the infinities and of what is not a number. -/
def topExponent (f : Format) : Nat := Nat.pow 2 f.exponent - 1

/-- The least positive number is two to the power of minus this. -/
def scale (f : Format) : Nat := Nat.pow 2 (f.exponent - 1) - 2 + f.fraction

/-- The magnitude of a finite bit pattern, in units of the least positive
number. -/
def units (f : Format) (bits : Nat) : Nat :=
  let e := f.exponentField bits
  if e = 0 then f.fractionField bits
  else (Nat.pow 2 f.fraction + f.fractionField bits) * Nat.pow 2 (e - 1)

/-- The distance, in the same units, from a finite magnitude to the next
greater one. -/
def gap (f : Format) (bits : Nat) : Nat := Nat.pow 2 (f.exponentField bits - 1)

/-- Whether the next smaller magnitude is only half a gap away. -/
def isNarrowBelow (f : Format) (bits : Nat) : Bool :=
  f.fractionField bits == 0 && 1 < f.exponentField bits

/-- The bit pattern of positive infinity. -/
def infinity (f : Format) : Nat := f.topExponent * Nat.pow 2 f.fraction

/-- The bit pattern of the number that is not one. -/
def notANumber (f : Format) : Nat := f.infinity + Nat.pow 2 (f.fraction - 1)

/-- The bit pattern with only the sign bit set. -/
def signBit (f : Format) : Nat := Nat.pow 2 (f.fraction + f.exponent)

/-- A quotient rounded to the nearest whole number, a half going to the
even neighbour. -/
def roundEven (num den : Nat) : Nat :=
  let q := num / den
  let r := num % den
  if 2 * r < den then q
  else if den < 2 * r then q + 1
  else if q % 2 = 0 then q else q + 1

/-- The bit pattern nearest to `num / den`, a tie going to the even
pattern; infinity from the midpoint beyond the greatest number on. -/
def nearest (f : Format) (num den : Nat) : Nat :=
  let whole := num * Nat.pow 2 f.scale / den
  let shift := if whole < Nat.pow 2 (f.fraction + 1) then 0 else whole.log2 - f.fraction
  let rounded := roundEven (num * Nat.pow 2 f.scale) (den * Nat.pow 2 shift)
  let bits := rounded + shift * Nat.pow 2 f.fraction
  min bits f.infinity

end Format

/-- A 64-bit floating point number, by its bits: two are equal when they
are the same pattern, so that a zero keeps its sign. -/
structure Binary64 where
  bits : UInt64
  deriving DecidableEq, Repr, Inhabited

namespace Binary64

/-- The number of a bit pattern. -/
def ofBits (bits : Nat) : Binary64 := ⟨UInt64.ofNat bits⟩

/-- The number nearest to `num / den`. -/
def ofRatio (num den : Nat) : Binary64 := ofBits (binary64.nearest num den)

/-- The magnitude in units of the least positive number. -/
def units (x : Binary64) : Nat := binary64.units x.bits.toNat

/-- The sum of two numbers that are not negative. -/
def add (x y : Binary64) : Binary64 := ofRatio (x.units + y.units) (Nat.pow 2 binary64.scale)

end Binary64
end Intake.Numeral
