import Intake.Json
import Intake.Writer.Local
/-!
# Settings of a consumer

What a consumer that is a process of its own is told when it starts: the
file that its rows go to, and how to write them.
-/

namespace Intake

/-- The settings of a consumer process. -/
structure ConsumerSettings where
  writer : WriterKind
  /-- The file that rows are added to. -/
  output : String
  truncate : Bool
  batchSize : Nat
  onDuplicate : DuplicatePolicy
  duplicateErrors : Limit
  duplicateBadFile : Option String
  deriving DecidableEq, Repr

namespace ConsumerSettings

/-- The settings for a load: rows are written one by one. -/
def ofOptions (o : Options) (output : String) : ConsumerSettings :=
  { writer := .direct
    output := output
    truncate := o.truncate
    batchSize := o.batchSize
    onDuplicate := o.onDuplicate
    duplicateErrors := o.duplicateErrors
    duplicateBadFile := o.duplicateBadFile }

/-- The limit as JSON. -/
def limitJson : Limit → Json
  | .limited n => .object [("Limited", .count n)]
  | .unlimited => .string (some "Unlimited")

/-- The settings as JSON. -/
def toJson (c : ConsumerSettings) : Json :=
  .object [("writer", .string (some c.writer.title)), ("output", .string (some c.output)),
    ("truncate", .bool c.truncate), ("batch_size", .count c.batchSize),
    ("on_duplicate", .string (some c.onDuplicate.title)),
    ("duplicate_errors", limitJson c.duplicateErrors),
    ("duplicate_badfile",
      match c.duplicateBadFile with
      | some path => .string (some path)
      | none => .null)]

/-- The writer that JSON names. -/
def writer? (j : Json) : Option WriterKind :=
  match j.choice? with
  | some "Direct" => some .direct
  | some "Buffered" => some .buffered
  | some "Parallel" => some .parallel
  | _ => none

/-- The policy that JSON names. -/
def policy? (j : Json) : Option DuplicatePolicy :=
  match j.choice? with
  | some "Error" => some .error
  | some "KeepNew" => some .keepNew
  | some "KeepOld" => some .keepOld
  | _ => none

/-- The limit that JSON holds. -/
def limit? (j : Json) : Option Limit :=
  match j with
  | .object [("Limited", .count n)] => some (.limited n)
  | j => if j.choice? = some "Unlimited" then some .unlimited else none

/-- The settings that JSON holds. -/
def ofJson? (j : Json) : Option ConsumerSettings := do
  let writer ← (j.field? 0 7 "writer" none).bind writer?
  let output ← (j.field? 1 7 "output" none).bind Json.string?
  let truncate ← (j.field? 2 7 "truncate" none).bind Json.bool?
  let batchSize ← (j.field? 3 7 "batch_size" none).bind Json.count?
  let onDuplicate ← (j.field? 4 7 "on_duplicate" none).bind policy?
  let duplicateErrors ← (j.field? 5 7 "duplicate_errors" none).bind limit?
  let duplicateBadFile ←
    (j.field? 6 7 "duplicate_badfile" (some .null)).bind (Json.optional? Json.string?)
  pure ⟨writer, output, truncate, batchSize, onDuplicate, duplicateErrors, duplicateBadFile⟩

/-- The settings that a text holds. -/
def ofText? (bs : Bytes) : Option ConsumerSettings := (Json.parse? bs).bind ofJson?

/-- The consumer's writer. Opening the file makes it, also when emptying
it fails afterwards. -/
def build (c : ConsumerSettings) (s : Site) : Except WriterError LocalWriter × Site :=
  match CsvFile.openAt c.output s.directory with
  | (.error e, directory) => (.error (.ofStorage e), { s with directory := directory })
  | (.ok file, directory) =>
    let duplicates : Duplicates :=
      { policy := c.onDuplicate
        limit := c.duplicateErrors
        file := { path := c.duplicateBadFile } }
    let batch := if c.writer = .buffered then some c.batchSize else none
    match LocalWriter.start { medium := .file file } duplicates batch c.truncate
        { s with directory := directory } with
    | (outcome, _, s) => (outcome, s)

end ConsumerSettings
end Intake
