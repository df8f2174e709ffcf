import Intake.Csv
import Intake.Table.Value
/-!
# Tables and rows

A schema is an ordered list of columns. A row has a value and a null flag
for every column; one row is used for a whole run and overwritten in
place, so the two lists are kept apart and every operation says what it
does to each.
-/

namespace Intake

/-- A column of the target table. -/
structure Column where
  name : String
  type : ColumnType
  /-- NULL is refused. -/
  notNull : Bool := false
  /-- What a record that ends before this column stores in it. -/
  default : Option Value := none
  deriving DecidableEq, Repr

/-- The columns of the target table, in order. -/
structure Schema where
  columns : List Column
  deriving DecidableEq, Repr

namespace Schema

/-- The number of columns. -/
def width (s : Schema) : Nat := s.columns.length

/-- The place of the first column of a name, in any case. -/
def indexOf? (s : Schema) (name : String) : Option Nat :=
  s.columns.findIdx? fun c => Text.sameLetters c.name name

end Schema

/-- A row: a value and a null flag for every column. -/
structure Row where
  values : List Value
  nulls : List Bool
  deriving DecidableEq, Repr, Inhabited

namespace Row

/-- A row of NULLs. -/
def blank (columns : Nat) : Row := ⟨List.replicate columns .null, List.replicate columns true⟩

/-- The row of some values, each flag saying whether its value is NULL. -/
def ofValues (values : List Value) : Row := ⟨values, values.map Value.isNull⟩

/-- The number of values. -/
def width (r : Row) : Nat := r.values.length

/-- Stores a value. -/
def set (r : Row) (i : Nat) (v : Value) : Row := ⟨r.values.set i v, r.nulls.set i v.isNull⟩

/-- Stores NULL. -/
def setNull (r : Row) (i : Nat) : Row := ⟨r.values.set i .null, r.nulls.set i true⟩

/-- Whether a column is flagged NULL, as every place past the last is. -/
def isNull (r : Row) (i : Nat) : Bool := r.nulls.getD i true

/-- The row as one comma-separated line. -/
def csvLine (r : Row) : Bytes := Csv.line (r.values.map fun v => Bytes.ofString v.display)

@[simp] theorem width_blank (n : Nat) : (blank n).width = n := by
  simp [blank, width]

end Row
end Intake
