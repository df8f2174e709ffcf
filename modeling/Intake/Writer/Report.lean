import Intake.Json
import Intake.Writer.Duplicates
/-!
# Reports of a consumer

How the reading side of a queue ended: the counts it reached, and what
stopped it, if something did. A consumer that is a process of its own
sends its report as text, and what stopped it arrives as text too.
-/

namespace Intake

/-- How a consumer ended. -/
structure Report where
  counts : Counts := {}
  error : Option WriterError := none
  deriving DecidableEq, Repr

namespace Counts

/-- The counts as JSON. -/
def toJson (c : Counts) : Json :=
  .object [("inserted", .count c.inserted), ("duplicate_new", .count c.duplicateNew),
    ("duplicate_old", .count c.duplicateOld)]

/-- The counts that JSON holds. -/
def ofJson? (j : Json) : Option Counts :=
  match (j.field? 0 3 "inserted" none).bind Json.count?,
      (j.field? 1 3 "duplicate_new" none).bind Json.count?,
      (j.field? 2 3 "duplicate_old" none).bind Json.count? with
  | some i, some n, some o => some ⟨i, n, o⟩
  | _, _, _ => none

end Counts

namespace Report

/-- The report of a consumer that could not start. -/
def failed (e : WriterError) : Report := ⟨{}, some e⟩

/-- The counts of a report, or what stopped the consumer. -/
def result (r : Report) : Except WriterError Counts :=
  match r.error with
  | some e => .error e
  | none => .ok r.counts

/-- The report as JSON. -/
def toJson (r : Report) : Json :=
  .object [("result", r.counts.toJson),
    ("error", match r.error with
      | some e => .string (some e.message)
      | none => .null)]

/-- The report that JSON holds. -/
def ofJson? (j : Json) : Option Report :=
  match (j.field? 0 2 "result" none).bind Counts.ofJson?,
      (j.field? 1 2 "error" (some .null)).bind (Json.optional? Json.string?) with
  | some counts, some error => some ⟨counts, error.map .remote⟩
  | _, _ => none

/-- The report that a text holds. -/
def ofText? (bs : Bytes) : Option Report := (Json.parse? bs).bind ofJson?

end Report
end Intake
