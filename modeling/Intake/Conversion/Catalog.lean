import Intake.Error
import Intake.Numeral.Decimal
import Intake.Numeral.Integer
import Intake.Table.Row
/-!
# Typed input

How the text of a field becomes a value of its column's type, and how a
storage can have a say in it. A catalog converts the fields of columns
that hold no character data and checks complete rows; it may also ask for
the run to stop, which takes effect when the run looks next.

A catalog has no memory here. Its answers are functions of what it is
asked, the column and the bytes or the schema and the row, and the same
question has the same answer throughout a run. What is said of any catalog
is said of these. One that counts its calls, or whose answers change with
a table elsewhere, is not among them.
-/

namespace Intake

/-- What a catalog answers. -/
structure Reaction (α : Type) where
  /-- Requests to stop made on the way, in order. -/
  requests : List Interrupt := []
  answer : Except StorageError α

/-- The storage's say in conversion and checking. -/
structure Catalog where
  /-- The value of a field that is not NULL. -/
  read : Column → Bytes → Reaction Value
  /-- Whether a row may be stored. -/
  check : Schema → Row → Reaction Unit

namespace ColumnType

/-- The truth value of a word. -/
def truth? (word : String) : Option Bool :=
  match Text.lower word with
  | "true" | "t" | "1" | "yes" | "y" | "on" => some true
  | "false" | "f" | "0" | "no" | "n" | "off" => some false
  | _ => none

/-- A whole number of `bits + 1` bits in two's complement. -/
def integer? (bits : Nat) (cs : List Char) : Option Int :=
  match Numeral.readSigned (Nat.pow 2 bits - 1) cs with
  | .ok n => some n
  | .error _ => none

/-- The value that a text without blanks around it stands for. -/
def valueOf? (t : ColumnType) (cs : List Char) : Option Value :=
  match t with
  | .int16 => (integer? 15 cs).map fun n => .int16 (Int16.ofInt n)
  | .int32 => (integer? 31 cs).map fun n => .int32 (Int32.ofInt n)
  | .int64 => (integer? 63 cs).map fun n => .int64 (Int64.ofInt n)
  | .float64 => (Numeral.Binary64.ofText? cs).map .float64
  | .bool => (truth? (String.ofList cs)).map .bool
  | .text => some (.text (Bytes.ofString (String.ofList cs)))

/-- The value of a field. Character data is kept as it is; anything else
must be UTF-8, and blanks around it do not count. -/
def read (t : ColumnType) (raw : Bytes) : Except StorageError Value :=
  if t = .text then .ok (.text raw)
  else
    match (Utf8.decode? raw).bind fun s => t.valueOf? (Text.trimChars s.toList) with
    | some v => .ok v
    | none =>
      .error (.invalid ("invalid input syntax for type " ++ t.title ++ ": \""
        ++ Utf8.lossy raw ++ "\""))

end ColumnType

namespace Catalog

/-- The catalog of a storage without rules of its own. -/
def plain : Catalog where
  read column raw := { answer := column.type.read raw }
  check _ _ := { answer := .ok () }

end Catalog
end Intake
