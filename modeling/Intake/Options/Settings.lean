import Intake.Layout.Basic
import Intake.Options.Basic
import Intake.Options.Dialect
/-!
# Options of a load

Everything a load is configured by, with the values it has unless
something else is said.
-/

namespace Intake

/-- The options of one load. -/
structure Options where
  format : InputFormat := .csv
  writer : WriterKind := .direct
  dialect : Dialect := .csv
  /-- Present for fixed-width input. -/
  layout : Option Layout := none
  /-- Trailing blanks of character fields are content. -/
  preserveBlanks : Bool := false
  /-- Records passed over at the start. -/
  skip : Nat := 0
  /-- Records attempted at most. -/
  limit : Option Nat := none
  parseErrors : Limit := .limited 0
  duplicateErrors : Limit := .limited 0
  onDuplicate : DuplicatePolicy := .keepNew
  parseBadFile : Option String := none
  duplicateBadFile : Option String := none
  logFile : Option String := none
  encoding : Encoding := .utf8
  /-- The catalog's own check is asked about each row. -/
  checkConstraints : Bool := false
  /-- The storage is emptied first. -/
  truncate : Bool := false
  /-- Rejected records are quoted in the log. -/
  verbose : Bool := false
  bufferSize : Nat := 65536
  maxBufferSize : Nat := 1073741824
  /-- Rows handed to the storage at a time. -/
  batchSize : Nat := 1000
  queueSize : Nat := 1048576
  /-- Milliseconds that one write to a full queue waits. -/
  queueWriteTimeout : Nat := 10000
  /-- Timed-out writes in a row before the consumer is given up. -/
  queueMaxStalls : Nat := 6
  deriving DecidableEq, Repr

end Intake
