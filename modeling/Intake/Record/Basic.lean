import Intake.Bytes
/-!
# Records

A record is what the input is divided into before anything is converted:
a number, the bytes as they were read, and the fields. Field bytes are
unescaped already; whether a field is NULL was decided on its bytes as
they were read, so a field has a flag beside its bytes.
-/

namespace Intake

/-- One field of a record. -/
structure Field where
  bytes : Bytes
  isNull : Bool := false
  deriving DecidableEq, Repr

/-- The content of a field, if it is not NULL. -/
def Field.content? (f : Field) : Option Bytes := if f.isNull then none else some f.bytes

/-- How much of a record there was when the input ended. -/
structure Shortfall where
  present : Nat
  wanted : Nat
  deriving DecidableEq, Repr

/-- The wording of a shortfall. -/
def Shortfall.message (s : Shortfall) : String :=
  "incomplete record: " ++ toString s.present ++ " of " ++ toString s.wanted ++ " bytes"

/-- One record of the input. -/
structure Record where
  /-- The place in the input, from 1; records passed over count. -/
  number : Nat
  /-- The bytes as read, with what ends the record. -/
  raw : Bytes
  fields : List Field
  /-- Present for a record that the input ends inside. -/
  shortfall : Option Shortfall := none
  deriving DecidableEq, Repr

end Intake
