import Intake.Conversion.Building
import Intake.Conversion.Transcoder
/-!
# Checking rows

A converted row is checked before it reaches the writer: its character
data must be text, and becomes UTF-8 where the input has another
encoding; columns that refuse NULL must not hold it; and the catalog may
be asked. The first rule that is broken rejects the row.
-/

namespace Intake

/-- What rows are held to. -/
structure Rules where
  schema : Schema
  catalog : Catalog
  transcoder : Transcoder := .known
  encoding : Encoding := .utf8
  /-- The catalog is asked about each row. -/
  checkConstraints : Bool := false

namespace Rules

/-- The character data of column `i` as it is stored. -/
def storeText (r : Rules) (record i : Nat) (bs : Bytes) : Except RowError Bytes :=
  if Utf8.isAscii bs then .ok bs
  else
    let converted :=
      if r.encoding.matchesStorage then Transcoder.checked bs else r.transcoder r.encoding bs
    match converted with
    | .ok stored => .ok stored
    | .error detail => .error (.rejected (.constraint ⟨record, some i, .encoding detail⟩))

/-- The values from column `i` on with their character data as it is
stored, up to the first that has no such form. -/
def storeValues (r : Rules) (record i : Nat) : List Value → Except RowError Unit × List Value
  | [] => (.ok (), [])
  | .text bs :: values =>
    match r.storeText record i bs with
    | .error e => (.error e, .text bs :: values)
    | .ok stored =>
      match r.storeValues record (i + 1) values with
      | (outcome, values) => (outcome, .text stored :: values)
  | v :: values =>
    match r.storeValues record (i + 1) values with
    | (outcome, values) => (outcome, v :: values)

/-- The first column that holds NULL and refuses it. -/
def nullViolation? (r : Rules) (row : Row) : Option Nat :=
  r.schema.columns.zipIdx.findSome? fun (c, i) =>
    if c.notNull && row.isNull i then some i else none

/-- The catalog's refusal of a row. -/
def refusal (record : Nat) : StorageError → RowError
  | .interrupted kind => .fatal (.interrupted kind)
  | .io e => .fatal (.io e)
  | other => .rejected (.constraint ⟨record, none, .check other.message⟩)

/-- Checks a row. -/
def validate (r : Rules) (record : Nat) (row : Row) : Attempt :=
  match r.storeValues record 0 row.values with
  | (.error e, values) => { outcome := .error e, row := { row with values := values } }
  | (.ok (), values) =>
    let row := { row with values := values }
    match r.nullViolation? row with
    | some i =>
      { outcome := .error (.rejected (.constraint ⟨record, some i, .notNull⟩)), row := row }
    | none =>
      if !r.checkConstraints then { outcome := .ok (), row := row }
      else
        let reaction := r.catalog.check r.schema row
        { outcome :=
            match reaction.answer with
            | .ok () => .ok ()
            | .error e => .error (refusal record e)
          row := row
          requests := reaction.requests }

/-- Builds a row from a record and checks it. -/
def attempt (r : Rules) (record : Record) (row : Row) : Attempt :=
  let built := row.build r.schema r.catalog record
  match built.outcome with
  | .error _ => built
  | .ok () =>
    let checked := r.validate record.number built.row
    { checked with requests := built.requests ++ checked.requests }

end Rules
end Intake
