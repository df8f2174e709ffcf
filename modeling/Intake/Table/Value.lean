import Intake.Numeral.Shortest
import Intake.Text.Letters
import Intake.Text.Utf8
/-!
# Values

A column has a type, a field of a row a value. Character data is carried
as bytes: the row check decides later whether they are text.
-/

namespace Intake

/-- The type of a column. -/
inductive ColumnType where
  | int16
  | int32
  | int64
  | float64
  | bool
  | text
  deriving DecidableEq, Repr

namespace ColumnType

/-- The type of a name as it stands in a column list, in any case. -/
def ofName? (name : String) : Option ColumnType :=
  match Text.lower name with
  | "int2" | "smallint" | "int16" => some .int16
  | "int" | "int4" | "integer" | "int32" => some .int32
  | "int8" | "bigint" | "int64" => some .int64
  | "float" | "float8" | "double" | "float64" => some .float64
  | "bool" | "boolean" => some .bool
  | "text" | "varchar" | "char" | "string" => some .text
  | _ => none

/-- Whether values of the type are character data. -/
def isCharacter : ColumnType → Bool
  | .text => true
  | _ => false

/-- The name of the type in messages. -/
def title : ColumnType → String
  | .int16 => "smallint"
  | .int32 => "integer"
  | .int64 => "bigint"
  | .float64 => "double precision"
  | .bool => "boolean"
  | .text => "text"

end ColumnType

/-- A value of a row. -/
inductive Value where
  | null
  | int16 (n : Int16)
  | int32 (n : Int32)
  | int64 (n : Int64)
  | float64 (x : Numeral.Binary64)
  | bool (b : Bool)
  | text (bytes : Bytes)
  deriving DecidableEq, Repr, Inhabited

namespace Value

/-- A text value. -/
def ofString (s : String) : Value := .text (Bytes.ofString s)

/-- Whether the value is NULL. -/
def isNull : Value → Bool
  | .null => true
  | _ => false

/-- The text of a value: NULL has none, and bytes that are not text are
shown with replacement characters. -/
def display : Value → String
  | .null => ""
  | .int16 n => toString n.toInt
  | .int32 n => toString n.toInt
  | .int64 n => toString n.toInt
  | .float64 x => x.text
  | .bool b => if b then "true" else "false"
  | .text bytes => Utf8.lossy bytes

/-- The bytes of a value in an output file: as `display`, but character
data unchanged. -/
def bytes : Value → Bytes
  | .text bytes => bytes
  | other => Bytes.ofString other.display

end Value
end Intake
