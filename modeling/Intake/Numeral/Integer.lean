import Intake.Text.Letters
import Intake.Text.Blank
/-!
# Whole numbers in text

An optional sign and decimal digits, nothing else: no blanks, no
separators. A minus is a sign only where negative numbers are wanted. The
digits are read from left to right, and the first thing wrong decides
what is reported: a character that is no digit, or the digit with which
the number leaves its range.
-/

namespace Intake.Numeral

/-- Why a text is not a number of the wanted range. -/
inductive Fault where
  | empty
  | notADigit
  | tooLarge
  | tooSmall
  deriving DecidableEq, Repr

/-- The wording of each fault. -/
def Fault.message : Fault → String
  | .empty => "cannot parse integer from empty string"
  | .notADigit => "invalid digit found in string"
  | .tooLarge => "number too large to fit in target type"
  | .tooSmall => "number too small to fit in target type"

/-- Appends digits to `acc`, which must not go beyond `bound`; past it the
fault is `beyond`. -/
def readDigits (bound : Nat) (beyond : Fault) (acc : Nat) : List Char → Except Fault Nat
  | [] => .ok acc
  | c :: cs =>
    match Text.digit? c with
    | none => .error .notADigit
    | some d =>
      if 10 * acc + d ≤ bound then readDigits bound beyond (10 * acc + d) cs
      else .error beyond

/-- A number from 0 to `bound`. -/
def readUnsigned (bound : Nat) : List Char → Except Fault Nat
  | [] => .error .empty
  | ['+'] => .error .notADigit
  | ['-'] => .error .notADigit
  | '+' :: cs => readDigits bound .tooLarge 0 cs
  | cs => readDigits bound .tooLarge 0 cs

/-- A number from `-(bound + 1)` to `bound`. -/
def readSigned (bound : Nat) : List Char → Except Fault Int
  | [] => .error .empty
  | ['+'] => .error .notADigit
  | ['-'] => .error .notADigit
  | '+' :: cs => (readDigits bound .tooLarge 0 cs).map Int.ofNat
  | '-' :: cs => (readDigits (bound + 1) .tooSmall 0 cs).map fun n => -Int.ofNat n
  | cs => (readDigits bound .tooLarge 0 cs).map Int.ofNat

/-- The greatest count that an option may give. -/
def maxCount : Nat := UInt64.size - 1

/-- A count from 0 to `maxCount`. -/
def count? (cs : List Char) : Option Nat :=
  match readUnsigned maxCount cs with
  | .ok n => some n
  | .error _ => none

end Intake.Numeral
