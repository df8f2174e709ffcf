import Intake.Csv
import Intake.Record.Basic
import Intake.Record.Source
/-!
# Records from rows

Rows that come from outside are records already. Their raw bytes, which a
rejected record leaves behind, are the row as one comma-separated line,
with nothing where a field is NULL.
-/

namespace Intake

/-- A reader of rows. -/
structure RowReader where
  source : RowSource
  /-- Rows read so far. -/
  count : Nat := 0

namespace RowReader

/-- A failure of the source as one of the run. -/
def failure : StorageError → LoadError
  | .interrupted kind => .interrupted kind
  | other => .source other.message

/-- The record of a row. -/
def record (number : Nat) (row : SourceRow) : Record :=
  { number := number
    raw := Csv.line (row.map fun v => v.getD [])
    fields := row.map fun v => ⟨v.getD [], v.isNone⟩ }

/-- The next row, or none at the end. -/
def pull (r : RowReader) : Except LoadError (Option SourceRow) × RowReader :=
  match r.source with
  | [] => (.ok none, r)
  | .error e :: rest => (.error (failure e), { r with source := rest })
  | .ok row :: rest => (.ok (some row), { source := rest, count := r.count + 1 })

/-- The next record, or none at the end. -/
def next (r : RowReader) : Except LoadError (Option Record) × RowReader :=
  match r.pull with
  | (.error e, r) => (.error e, r)
  | (.ok none, r) => (.ok none, r)
  | (.ok (some row), r) => (.ok (some (record r.count row)), r)

/-- Passes over `left` of `wanted` rows. -/
def skipFrom (wanted : Nat) (r : RowReader) : Nat → Except LoadError Nat × RowReader
  | 0 => (.ok wanted, r)
  | left + 1 =>
    match r.pull with
    | (.error e, r) => (.error e, r)
    | (.ok none, r) => (.error (.skipExceedsInput wanted (wanted - (left + 1))), r)
    | (.ok (some _), r) => skipFrom wanted r left

/-- Passes over `n` rows. -/
def skip (r : RowReader) (n : Nat) : Except LoadError Nat × RowReader := skipFrom n r n

end RowReader
end Intake
