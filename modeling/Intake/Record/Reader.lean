import Intake.Options.Settings
import Intake.Record.Delimited
import Intake.Record.Fixed
import Intake.Record.Rows
import Intake.Table.Row
/-!
# Reading records

One reader for every format. `RecordReader.start` chooses it by the
options and refuses options that do not fit the source or the table.
-/

namespace Intake

/-- A reader of records. -/
inductive RecordReader where
  | delimited (r : DelimitedReader)
  | fixed (r : FixedReader)
  | rows (r : RowReader)

namespace RecordReader

/-- For each column, whether the NULL marker is content, by the names of
those in which it is. -/
def forcedColumns (schema : Schema) : List String → List Bool → Except LoadError (List Bool)
  | [], flags => .ok flags
  | name :: names, flags =>
    match schema.indexOf? name with
    | none => .error (.config ("FORCE_NOT_NULL column \"" ++ name ++ "\" does not exist"))
    | some i => forcedColumns schema names (flags.set i true)

/-- The layout for a table: no more fields than columns, and a default
for each column that has no field. -/
def layoutFor (o : Options) (schema : Schema) : Except LoadError Layout :=
  match o.layout with
  | none => .error (.config "fixed-width input requires at least one COL")
  | some layout =>
    if schema.width < layout.fields.length then
      .error (.config (toString layout.fields.length ++ " COL specifications for a table of "
        ++ toString schema.width ++ " columns"))
    else
      match (schema.columns.drop layout.fields.length).find? fun c => c.default.isNone with
      | some c =>
        .error (.config ("no COL specification or default for column \"" ++ c.name ++ "\""))
      | none => .ok layout

/-- A reader of delimited records. -/
def startDelimited (s : ByteSource) (o : Options) (schema : Schema) :
    Except LoadError RecordReader :=
  (forcedColumns schema o.dialect.forceNotNull (List.replicate schema.width false)).map
    fun forced =>
      .delimited
        { source := s
          buffer := Buffer.ofSizes o.bufferSize o.maxBufferSize
          dialect := o.dialect
          forced := forced }

/-- The reader of a source. -/
def start (source : Source) (o : Options) (schema : Schema) : Except LoadError RecordReader :=
  match o.format, source with
  | .csv, .bytes s => startDelimited s o schema
  | .text, .bytes s => startDelimited s o schema
  | .fixed, .bytes s =>
    (layoutFor o schema).map fun layout =>
      .fixed (.start s layout o.preserveBlanks o.bufferSize o.maxBufferSize)
  | .function, .rows s => .ok (.rows { source := s })
  | .function, .bytes _ => .error (.config "TYPE=FUNCTION requires a row source")
  | _, .rows _ => .error (.config "a row source requires TYPE=FUNCTION")

/-- The next record, or none at the end. -/
def next : RecordReader → Except LoadError (Option Record) × RecordReader
  | .delimited r => match r.next with | (x, r) => (x, .delimited r)
  | .fixed r => match r.next with | (x, r) => (x, .fixed r)
  | .rows r => match r.next with | (x, r) => (x, .rows r)

/-- Passes over `n` records. It fails where the input has fewer. -/
def skip (n : Nat) : RecordReader → Except LoadError Nat × RecordReader
  | .delimited r => match r.skip n with | (x, r) => (x, .delimited r)
  | .fixed r => match r.skip n with | (x, r) => (x, .fixed r)
  | .rows r => match r.skip n with | (x, r) => (x, .rows r)

end RecordReader
end Intake
