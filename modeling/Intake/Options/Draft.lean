import Intake.Layout.Notation
import Intake.Options.Settings
/-!
# Options from pairs

Options are given as pairs of a key and a value. A draft collects them in
order; a later value of the same key takes the place of an earlier one,
except that columns and their flags add up. When all pairs are in, the
draft becomes `Options`: what depends on the format is settled then, and
what does not fit the format is refused.
-/

namespace Intake

/-- The keys of options. -/
inductive Key where
  | format
  | writer
  | multiProcess
  | delimiter
  | quote
  | escape
  | null
  | forceNotNull
  | column
  | stride
  | preserveBlanks
  | skip
  | limit
  | parseErrors
  | duplicateErrors
  | keptOnDuplicate
  | onDuplicate
  | parseBadFile
  | duplicateBadFile
  | logFile
  | encoding
  | checkConstraints
  | truncate
  | verbose
  | bufferSize
  | batchSize
  | queueSize
  deriving DecidableEq, Repr

/-- The key of a name, which is in upper case. -/
def Key.ofName? (name : String) : Option Key :=
  match name with
  | "TYPE" => some .format
  | "WRITER" | "LOADER" => some .writer
  | "MULTI_PROCESS" => some .multiProcess
  | "DELIMITER" => some .delimiter
  | "QUOTE" => some .quote
  | "ESCAPE" => some .escape
  | "NULL" => some .null
  | "FORCE_NOT_NULL" => some .forceNotNull
  | "COL" => some .column
  | "STRIDE" => some .stride
  | "PRESERVE_BLANKS" => some .preserveBlanks
  | "SKIP" | "OFFSET" => some .skip
  | "LIMIT" | "LOAD" => some .limit
  | "PARSE_ERRORS" | "MAX_ERR_CNT" => some .parseErrors
  | "DUPLICATE_ERRORS" => some .duplicateErrors
  | "ON_DUPLICATE_KEEP" => some .keptOnDuplicate
  | "ON_DUPLICATE" => some .onDuplicate
  | "PARSE_BADFILE" => some .parseBadFile
  | "DUPLICATE_BADFILE" => some .duplicateBadFile
  | "LOGFILE" => some .logFile
  | "ENCODING" => some .encoding
  | "CHECK_CONSTRAINTS" => some .checkConstraints
  | "TRUNCATE" => some .truncate
  | "VERBOSE" => some .verbose
  | "BUFFER_SIZE" => some .bufferSize
  | "BATCH_SIZE" => some .batchSize
  | "QUEUE_SIZE" => some .queueSize
  | _ => none

/-- Options as far as they have been given. -/
structure Draft where
  format : Option InputFormat := none
  writer : Option WriterKind := none
  delimiter : Option Bytes := none
  quote : Option Bytes := none
  escape : Option Bytes := none
  null : Option Bytes := none
  forceNotNull : List String := []
  columns : List String := []
  stride : Option Nat := none
  preserveBlanks : Option Bool := none
  skip : Option Nat := none
  limit : Option Nat := none
  parseErrors : Option Limit := none
  duplicateErrors : Option Limit := none
  onDuplicate : Option DuplicatePolicy := none
  parseBadFile : Option String := none
  duplicateBadFile : Option String := none
  logFile : Option String := none
  encoding : Option Encoding := none
  checkConstraints : Option Bool := none
  truncate : Option Bool := none
  verbose : Option Bool := none
  bufferSize : Option Nat := none
  batchSize : Option Nat := none
  queueSize : Option Nat := none
  deriving DecidableEq, Repr

namespace Draft

/-- The names of a comma-separated list, blanks around them and empty
ones left out. -/
def names (value : String) : List String :=
  ((Text.splitAll ',' value.toList).map fun cs => String.ofList (Text.trimChars cs)).filter
    fun s => !s.isEmpty

/-- A draft after one more pair; nothing if the value is not one of the
key's. -/
def set? (d : Draft) (key : Key) (value : String) : Option Draft :=
  let word := Text.trim value
  match key with
  | .format => (InputFormat.ofName? word).map fun f => { d with format := some f }
  | .writer => (WriterKind.ofName? word).map fun w => { d with writer := some w }
  | .multiProcess =>
    (flag? value).map fun yes => if yes then { d with writer := some .parallel } else d
  | .delimiter => some { d with delimiter := some (Bytes.ofString value) }
  | .quote => some { d with quote := some (Bytes.ofString value) }
  | .escape => some { d with escape := some (Bytes.ofString value) }
  | .null => some { d with null := some (Bytes.ofString value) }
  | .forceNotNull => some { d with forceNotNull := d.forceNotNull ++ names value }
  | .column => some { d with columns := d.columns ++ [value] }
  | .stride => (positive? value).map fun n => { d with stride := some n }
  | .preserveBlanks => (flag? value).map fun b => { d with preserveBlanks := some b }
  | .skip => (Numeral.count? word.toList).map fun n => { d with skip := some n }
  | .limit =>
    (Limit.ofText? value).map fun l =>
      { d with limit := match l with | .limited n => some n | .unlimited => none }
  | .parseErrors => (Limit.ofText? value).map fun l => { d with parseErrors := some l }
  | .duplicateErrors => (Limit.ofText? value).map fun l => { d with duplicateErrors := some l }
  | .keptOnDuplicate =>
    (DuplicatePolicy.ofKept? word).map fun p => { d with onDuplicate := some p }
  | .onDuplicate => (DuplicatePolicy.ofName? word).map fun p => { d with onDuplicate := some p }
  | .parseBadFile => some { d with parseBadFile := some word }
  | .duplicateBadFile => some { d with duplicateBadFile := some word }
  | .logFile => some { d with logFile := some word }
  | .encoding => (Encoding.ofName? word).map fun e => { d with encoding := some e }
  | .checkConstraints => (flag? value).map fun b => { d with checkConstraints := some b }
  | .truncate => (flag? value).map fun b => { d with truncate := some b }
  | .verbose => (flag? value).map fun b => { d with verbose := some b }
  | .bufferSize => (positive? value).map fun n => { d with bufferSize := some n }
  | .batchSize => (positive? value).map fun n => { d with batchSize := some n }
  | .queueSize => (positive? value).map fun n => { d with queueSize := some n }

/-- A draft after one more pair. Blanks around the key and its case do
not count. -/
def set (d : Draft) (key value : String) : Except LoadError Draft :=
  let name := Text.upper (Text.trim key)
  match Key.ofName? name with
  | none => .error (.config ("unrecognized option '" ++ name ++ "'"))
  | some k =>
    match d.set? k value with
    | some d => .ok d
    | none => .error (.config ("invalid value for " ++ name ++ ": '" ++ value ++ "'"))

/-- A draft after several pairs, in order. -/
def setAll (d : Draft) : List (String × String) → Except LoadError Draft
  | [] => .ok d
  | (key, value) :: pairs =>
    match d.set key value with
    | .error e => .error e
    | .ok d => d.setAll pairs

/-- The only byte of a value. -/
def singleByte (title : String) (value : Option Bytes) : Except LoadError (Option UInt8) :=
  match value with
  | none => .ok none
  | some [b] => .ok (some b)
  | some _ => .error (.config (title ++ " must be a single one-byte character"))

/-- The dialect of a delimited format. A quote without an escape is its
own escape. -/
def dialect (d : Draft) (base : Dialect) (quotable : Bool) : Except LoadError Dialect :=
  if d.quote.isSome && !quotable then .error (.config "QUOTE is only available in CSV mode")
  else
    match singleByte "QUOTE" d.quote with
    | .error e => .error e
    | .ok quote =>
      match singleByte "ESCAPE" d.escape with
      | .error e => .error e
      | .ok escape =>
        let dialect : Dialect :=
          { delimiter := d.delimiter.getD base.delimiter
            quote := quote <|> base.quote
            escape := escape <|> quote <|> base.escape
            nullMarker := d.null.getD base.nullMarker
            forceNotNull := d.forceNotNull }
        dialect.check.map fun () => dialect

/-- The first key given that only delimited input has. -/
def delimitedKey? (d : Draft) : Option String :=
  if d.delimiter.isSome then some "DELIMITER"
  else if d.quote.isSome then some "QUOTE"
  else if d.escape.isSome then some "ESCAPE"
  else if d.null.isSome then some "NULL"
  else if !d.forceNotNull.isEmpty then some "FORCE_NOT_NULL"
  else none

/-- The dialect of the format: other formats have one too, which they do
not use and which cannot be changed. -/
def dialectFor (d : Draft) (format : InputFormat) : Except LoadError Dialect :=
  match format with
  | .csv => d.dialect .csv true
  | .text => d.dialect .text false
  | .fixed | .function =>
    match d.delimitedKey? with
    | some name => .error (.config (name ++ " is only available for delimited input"))
    | none => .ok .csv

/-- The layout of the format. -/
def layoutFor (d : Draft) (format : InputFormat) : Except LoadError (Option Layout) :=
  if format = .fixed then (Layout.ofNotation d.columns d.stride).map some
  else if !d.columns.isEmpty || d.stride.isSome then
    .error (.config "COL and STRIDE are only available for fixed-width input")
  else .ok none

/-- The least queue that can be asked for. -/
def minQueueSize : Nat := 16

/-- The options of a complete draft. -/
def finish (d : Draft) : Except LoadError Options :=
  let defaults : Options := {}
  let format := d.format.getD defaults.format
  match d.dialectFor format with
  | .error e => .error e
  | .ok dialect =>
    match d.layoutFor format with
    | .error e => .error e
    | .ok layout =>
      let bufferSize := d.bufferSize.getD defaults.bufferSize
      let queueSize := d.queueSize.getD defaults.queueSize
      if queueSize < minQueueSize then
        .error (.config ("QUEUE_SIZE " ++ toString queueSize ++ " is too small"))
      else
        .ok
          { defaults with
            format := format
            writer := d.writer.getD defaults.writer
            dialect := dialect
            layout := layout
            preserveBlanks := d.preserveBlanks.getD defaults.preserveBlanks
            skip := d.skip.getD defaults.skip
            limit := d.limit
            parseErrors := d.parseErrors.getD defaults.parseErrors
            duplicateErrors := d.duplicateErrors.getD defaults.duplicateErrors
            onDuplicate := d.onDuplicate.getD defaults.onDuplicate
            parseBadFile := d.parseBadFile
            duplicateBadFile := d.duplicateBadFile
            logFile := d.logFile
            encoding := d.encoding.getD defaults.encoding
            checkConstraints := d.checkConstraints.getD defaults.checkConstraints
            truncate := d.truncate.getD defaults.truncate
            verbose := d.verbose.getD defaults.verbose
            bufferSize := bufferSize
            maxBufferSize := max defaults.maxBufferSize bufferSize
            batchSize := d.batchSize.getD defaults.batchSize
            queueSize := queueSize }

end Draft

/-- The options that pairs give. -/
def Options.ofPairs (pairs : List (String × String)) : Except LoadError Options :=
  match ({} : Draft).setAll pairs with
  | .error e => .error e
  | .ok d => d.finish

end Intake
