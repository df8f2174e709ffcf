import Intake.Bytes
import Intake.Interrupt
/-!
# Errors

What can go wrong, by the layer that reports it. A layer's error wraps
the error of the layer below where the cause is the same, so that an
interrupt stays recognisable however far it travels
(`LoadError.isInterrupt`). Each error is a cause; its wording is written
once, in the function `message` of its type.

Errors that stop a run are `LoadError`s. A failure of one record is a
`Rejection`: it is counted, logged and kept, and the run goes on.
-/

namespace Intake

/-- A failure of the file system or of an input stream. -/
inductive IoError where
  | noSuchFile
  | isDirectory
  | notADirectory
  | nameTooLong
  /-- Any other failure, by its wording. -/
  | other (text : String)
  deriving DecidableEq, Repr

/-- The wording of a file system failure. -/
def IoError.message : IoError → String
  | .noSuchFile => "No such file or directory (os error 2)"
  | .isDirectory => "Is a directory (os error 21)"
  | .notADirectory => "Not a directory (os error 20)"
  | .nameTooLong => "File name too long (os error 36)"
  | .other text => text

/-- A failure of a ring queue. -/
inductive QueueError where
  | io (cause : IoError)
  /-- The segment does not carry the tag of a ring queue. -/
  | badMagic (key : Nat) (found : Nat)
  /-- A request of the capacity or more. -/
  | tooLarge (requested capacity : Nat)
  | invalidCapacity (capacity : Nat)
  | interrupted (kind : Interrupt)
  /-- The producer no longer exists. -/
  | peerGone (pid : Nat)
  /-- The side was closed before. -/
  | closed (key : Nat)
  deriving DecidableEq, Repr

/-- A 32-bit word in hexadecimal, eight digits wide. -/
def hexWord (n : Nat) : String :=
  "0x" ++ Bytes.hex (Bytes.littleEndian 4 n).reverse

/-- The wording of a queue failure. -/
def QueueError.message : QueueError → String
  | .io e => "queue io error: " ++ e.message
  | .badMagic key found =>
    "shared segment " ++ toString key ++ " is not a ring queue (magic " ++ hexWord found ++ ")"
  | .tooLarge requested capacity =>
    "queue request of " ++ toString requested ++ " bytes does not fit capacity " ++
      toString capacity
  | .invalidCapacity capacity => "queue capacity " ++ toString capacity ++ " is too small"
  | .interrupted kind => kind.message
  | .peerGone pid => "queue peer process " ++ toString pid ++ " is gone"
  | .closed key => "ring queue " ++ toString key ++ " is closed"

/-- What a storage or a catalog reports. -/
inductive StorageError where
  /-- The value or row is not acceptable. -/
  | invalid (text : String)
  | interrupted (kind : Interrupt)
  | io (cause : IoError)
  /-- A row could not be written as a record. -/
  | csv (text : String)
  deriving DecidableEq, Repr

/-- The wording of a storage failure. -/
def StorageError.message : StorageError → String
  | .invalid text => text
  | .interrupted kind => kind.message
  | .io e => "storage io error: " ++ e.message
  | .csv text => "storage csv error: " ++ text

/-- What a writer reports; each of these stops the run. -/
inductive WriterError where
  | storage (text : String)
  | interrupted (kind : Interrupt)
  /-- A duplicate key where the policy is to fail on one. -/
  | duplicateKey (key : String)
  | duplicateLimit (count limit : Nat)
  /-- The duplicate bad-record file could not be written. -/
  | io (cause : IoError)
  /-- A frame could not be read back. -/
  | encode (text : String)
  | queue (cause : QueueError)
  | peerGone
  /-- The consumer is there but does not drain the queue. -/
  | peerStalled (stalls : Nat)
  /-- The consumer reported a failure. -/
  | remote (text : String)
  /-- The writer was closed before. -/
  | closed
  deriving DecidableEq, Repr

/-- The wording of a writer failure. -/
def WriterError.message : WriterError → String
  | .storage text => "storage failure: " ++ text
  | .interrupted kind => kind.message
  | .duplicateKey key => "duplicate key value in row: " ++ key
  | .duplicateLimit count limit =>
    "too many duplicate errors: " ++ toString count ++ " (limit " ++ toString limit ++ ")"
  | .io e => "io error: " ++ e.message
  | .encode text => "failed to encode row frame: " ++ text
  | .queue e => e.message
  | .peerGone => "loader process terminated unexpectedly"
  | .peerStalled stalls =>
    "loader process stalled: queue stayed full for " ++ toString stalls ++ " write attempts"
  | .remote text => "loader process failed: " ++ text
  | .closed => "writer is already closed"

/-- A storage failure as the writer over that storage reports it. -/
def WriterError.ofStorage : StorageError → WriterError
  | .interrupted kind => .interrupted kind
  | .io e => .io e
  | other => .storage other.message

/-- What stops a run. -/
inductive LoadError where
  | io (cause : IoError)
  /-- An invalid option, or options, input and table that do not fit. -/
  | config (text : String)
  /-- A record does not fit in the greatest allowed buffer. -/
  | recordTooLarge (record max : Nat)
  /-- The input ends inside a quoted field. -/
  | unterminatedQuote (record : Nat)
  /-- More records were to be skipped than the input holds. -/
  | skipExceedsInput (requested found : Nat)
  | interrupted (kind : Interrupt)
  | parseErrorLimit (count limit : Nat)
  /-- The external row source failed. -/
  | source (text : String)
  | writer (cause : WriterError)
  | queue (cause : QueueError)
  deriving DecidableEq, Repr

namespace LoadError

/-- The wording of a run-level failure. -/
def message : LoadError → String
  | .io e => "io error: " ++ e.message
  | .config text => "invalid configuration: " ++ text
  | .recordTooLarge record max =>
    "record " ++ toString record ++ " exceeds the maximum buffer size of " ++ toString max ++
      " bytes"
  | .unterminatedQuote record => "unterminated quoted field in record " ++ toString record
  | .skipExceedsInput requested found =>
    "cannot skip " ++ toString requested ++ " records: input holds only " ++ toString found
  | .interrupted kind => kind.message
  | .parseErrorLimit count limit =>
    "too many parse errors: " ++ toString count ++ " (limit " ++ toString limit ++ ")"
  | .source text => "row source failed: " ++ text
  | .writer e => e.message
  | .queue e => e.message

/-- The interrupt behind an error, through every layer that passes one on. -/
def interrupt? : LoadError → Option Interrupt
  | .interrupted kind => some kind
  | .writer (.interrupted kind) => some kind
  | .writer (.queue (.interrupted kind)) => some kind
  | .queue (.interrupted kind) => some kind
  | _ => none

/-- Whether the error comes from a request to stop. -/
def isInterrupt (e : LoadError) : Bool := e.interrupt?.isSome

end LoadError

/-- A record that cannot be split or converted. -/
structure ParseError where
  /-- The record's number, from 1, skipped records included. -/
  record : Nat
  /-- The field's number, from 1, if one field is to blame. -/
  field : Option Nat
  detail : String
  deriving DecidableEq, Repr

/-- Where a failure sits, and what it is. -/
def located (record : Nat) (field : Option Nat) (detail : String) : String :=
  match field with
  | some n => "record " ++ toString record ++ ", column " ++ toString n ++ ": " ++ detail
  | none => "record " ++ toString record ++ ": " ++ detail

/-- The wording of a parse failure. -/
def ParseError.message (e : ParseError) : String := located e.record e.field e.detail

/-- Which rule a row breaks. -/
inductive Constraint where
  /-- Text that is not well-formed in its encoding. -/
  | encoding (detail : String)
  | notNull
  /-- The storage's own check refused the row. -/
  | check (detail : String)
  deriving DecidableEq, Repr

/-- The wording of a broken rule. -/
def Constraint.message : Constraint → String
  | .encoding detail => "invalid byte sequence: " ++ detail
  | .notNull => "null value violates not-null constraint"
  | .check detail => "row violates constraint: " ++ detail

/-- A converted row that breaks a rule. -/
structure ConstraintError where
  record : Nat
  /-- The column's place, from 0, where known. -/
  column : Option Nat
  constraint : Constraint
  deriving DecidableEq, Repr

/-- The wording of a broken rule, with its place. -/
def ConstraintError.message (e : ConstraintError) : String :=
  located e.record (e.column.map (· + 1)) e.constraint.message

/-- A failure of one record, which the run absorbs up to a limit. -/
inductive Rejection where
  | parse (e : ParseError)
  | constraint (e : ConstraintError)
  deriving DecidableEq, Repr

/-- The wording of a rejection. -/
def Rejection.message : Rejection → String
  | .parse e => e.message
  | .constraint e => e.message

/-- What an attempt at one record can end in besides success. -/
inductive RowError where
  /-- The record is rejected and the run goes on. -/
  | rejected (r : Rejection)
  /-- The run must stop. Interrupts come this way and are never counted. -/
  | fatal (e : LoadError)
  deriving DecidableEq, Repr

namespace RowError

/-- A parse failure as the outcome of an attempt. -/
def ofParse (record : Nat) (field : Option Nat) (detail : String) : RowError :=
  .rejected (.parse ⟨record, field, detail⟩)

/-- A storage failure met while handling one field: interrupts and
failures of the file system stop the run, the rest rejects the record. -/
def ofStorage (record : Nat) (field : Option Nat) : StorageError → RowError
  | .interrupted kind => .fatal (.interrupted kind)
  | .io e => .fatal (.io e)
  | other => ofParse record field other.message

end RowError

/-- How much attention an event deserves. -/
inductive Severity where
  | info
  | warning
  | error
  | critical
  deriving DecidableEq, Repr

/-- The severities in rising order. -/
def Severity.rank : Severity → Nat
  | .info => 0
  | .warning => 1
  | .error => 2
  | .critical => 3

/-- The name of a severity in log lines. -/
def Severity.name : Severity → String
  | .info => "Info"
  | .warning => "Warning"
  | .error => "Error"
  | .critical => "Critical"

/-- The severity of what stopped a run: a requested stop is a warning,
failures of files, of the queue and of the consumer are critical. -/
def Severity.of (e : LoadError) : Severity :=
  if e.isInterrupt then .warning
  else
    match e with
    | .io _ => .critical
    | .queue _ => .critical
    | .writer (.io _) => .critical
    | .writer (.queue _) => .critical
    | .writer .peerGone => .critical
    | .writer (.peerStalled _) => .critical
    | .writer (.remote _) => .critical
    | _ => .error

end Intake
