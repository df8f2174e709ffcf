import Intake.Conversion.Catalog
import Intake.Record.Basic
/-!
# Rows from records

Field after field, a record is converted into the row that is used for
the whole run. A record that fails leaves the row changed up to the field
that failed; the next record overwrites every column.
-/

namespace Intake

/-- A row being made, with what it came to. -/
structure Attempt where
  outcome : Except RowError Unit
  /-- The row as it stands now. -/
  row : Row
  /-- Requests to stop made on the way, in order. -/
  requests : List Interrupt := []

namespace Row

/-- Stores one field in column `i`: NULL, character data as it is, and
anything else through the catalog. -/
def putField (row : Row) (catalog : Catalog) (record : Nat) (i : Nat) (column : Column)
    (f : Field) : Attempt :=
  match f.content? with
  | none => { outcome := .ok (), row := row.setNull i }
  | some bs =>
    if column.type.isCharacter then { outcome := .ok (), row := row.set i (.text bs) }
    else
      let reaction := catalog.read column bs
      match reaction.answer with
      | .ok v => { outcome := .ok (), row := row.set i v, requests := reaction.requests }
      | .error e =>
        { outcome := .error (.ofStorage record (some (i + 1)) e)
          row := row
          requests := reaction.requests }

/-- Stores the default of column `i`, where there is one. -/
def putDefault (row : Row) (record : Nat) (i : Nat) (column : Column) : Attempt :=
  match column.default with
  | some v => { outcome := .ok (), row := row.set i v }
  | none =>
    { outcome := .error (.ofParse record (some (i + 1))
        ("missing data for column \"" ++ column.name ++ "\""))
      row := row }

/-- Stores fields in the columns from `i` on; columns past the last field
take their defaults. -/
def putFields (row : Row) (catalog : Catalog) (record : Nat) (i : Nat) :
    List Column → List Field → List Interrupt → Attempt
  | [], _, requests => { outcome := .ok (), row := row, requests := requests }
  | column :: columns, fields, requests =>
    let attempt :=
      match fields with
      | f :: _ => row.putField catalog record i column f
      | [] => row.putDefault record i column
    let requests := requests ++ attempt.requests
    match attempt.outcome with
    | .error e => { outcome := .error e, row := attempt.row, requests := requests }
    | .ok () => attempt.row.putFields catalog record (i + 1) columns fields.tail requests

/-- Overwrites the row with the values of a record. -/
def build (row : Row) (schema : Schema) (catalog : Catalog) (record : Record) : Attempt :=
  match record.shortfall with
  | some s => { outcome := .error (.ofParse record.number none s.message), row := row }
  | none =>
    if schema.width < record.fields.length then
      { outcome := .error (.ofParse record.number (some (schema.width + 1))
          "extra data after last expected column")
        row := row }
    else
      let row := if row.width = schema.width then row else blank schema.width
      row.putFields catalog record.number 0 schema.columns record.fields []

end Row
end Intake
