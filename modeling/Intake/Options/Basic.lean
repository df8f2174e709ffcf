import Intake.Bytes
import Intake.Numeral.Integer
/-!
# Choices and limits

The small choices that a load is configured by: the input format, the
writer, what to do on a duplicate key, how many errors to put up with,
the encoding of the input. Each has a reader for its name; names are
compared without regard to the case of ASCII letters.
-/

namespace Intake

/-- How the input is divided into records and fields. -/
inductive InputFormat where
  /-- Delimited fields that may be quoted. -/
  | csv
  /-- Delimited fields in which an escape byte makes the next literal. -/
  | text
  /-- Records of one length with fields at fixed places. -/
  | fixed
  /-- Rows that come from outside as rows. -/
  | function
  deriving DecidableEq, Repr

namespace InputFormat

/-- The format of a name. -/
def ofName? (name : String) : Option InputFormat :=
  match Text.upper name with
  | "CSV" => some .csv
  | "TEXT" | "TSV" => some .text
  | "FIXED" | "BINARY" => some .fixed
  | "FUNCTION" => some .function
  | _ => none

/-- Whether fields are split at a delimiter. -/
def isDelimited : InputFormat → Bool
  | .csv | .text => true
  | .fixed | .function => false

/-- The format in log lines. -/
def title : InputFormat → String
  | .csv => "Csv"
  | .text => "Text"
  | .fixed => "Fixed"
  | .function => "Function"

end InputFormat

/-- How accepted rows reach the storage. -/
inductive WriterKind where
  /-- One by one. -/
  | direct
  /-- In batches. -/
  | buffered
  /-- Over a ring queue, stored by a consumer at its other end. -/
  | parallel
  deriving DecidableEq, Repr

namespace WriterKind

/-- The writer of a name. -/
def ofName? (name : String) : Option WriterKind :=
  match Text.upper name with
  | "DIRECT" => some .direct
  | "BUFFERED" => some .buffered
  | "PARALLEL" => some .parallel
  | _ => none

/-- The writer in log lines and in a consumer's configuration. -/
def title : WriterKind → String
  | .direct => "Direct"
  | .buffered => "Buffered"
  | .parallel => "Parallel"

end WriterKind

/-- What happens when a row's key is stored already. -/
inductive DuplicatePolicy where
  /-- The run fails. -/
  | error
  /-- The new row replaces the stored one. -/
  | keepNew
  /-- The stored row stays. -/
  | keepOld
  deriving DecidableEq, Repr

namespace DuplicatePolicy

/-- The policy of a full name. -/
def ofName? (name : String) : Option DuplicatePolicy :=
  match Text.upper name with
  | "ERROR" => some .error
  | "KEEP_NEW" => some .keepNew
  | "KEEP_OLD" => some .keepOld
  | _ => none

/-- The policy that keeps the row of a name. -/
def ofKept? (name : String) : Option DuplicatePolicy :=
  match Text.upper name with
  | "NEW" => some .keepNew
  | "OLD" => some .keepOld
  | _ => none

/-- The policy in a consumer's configuration. -/
def title : DuplicatePolicy → String
  | .error => "Error"
  | .keepNew => "KeepNew"
  | .keepOld => "KeepOld"

end DuplicatePolicy

/-- How many errors of one kind a run puts up with. -/
inductive Limit where
  | limited (max : Nat)
  | unlimited
  deriving DecidableEq, Repr

namespace Limit

/-- A count, or one of the words and the number that stand for no limit. -/
def ofText? (text : String) : Option Limit :=
  let word := Text.trim text
  if Text.sameLetters word "INFINITE" || Text.sameLetters word "UNLIMITED" || word == "-1" then
    some .unlimited
  else (Numeral.count? word.toList).map .limited

/-- Whether `count` errors are too many. -/
def exceededBy (l : Limit) (count : Nat) : Bool :=
  match l with
  | .limited max => max < count
  | .unlimited => false

/-- The limit as a number in messages. -/
def number : Limit → Nat
  | .limited max => max
  | .unlimited => Numeral.maxCount

/-- The limit as an option value. -/
def text : Limit → String
  | .limited max => toString max
  | .unlimited => "INFINITE"

end Limit

/-- The encoding of the input's character data. Rows are stored in UTF-8. -/
inductive Encoding where
  | utf8
  | latin1
  /-- Bytes pass as they are, but must be UTF-8 all the same. -/
  | sqlAscii
  deriving DecidableEq, Repr

namespace Encoding

/-- The encoding of a name, in which hyphens and low lines do not count. -/
def ofName? (name : String) : Option Encoding :=
  match String.ofList ((Text.upper name).toList.filter fun c => c != '-' && c != '_') with
  | "UTF8" | "UNICODE" => some .utf8
  | "LATIN1" | "ISO88591" => some .latin1
  | "SQLASCII" => some .sqlAscii
  | _ => none

/-- Whether bytes of the encoding are stored as they are. -/
def matchesStorage : Encoding → Bool
  | .utf8 | .sqlAscii => true
  | .latin1 => false

end Encoding

/-- The yes and no of option values. -/
def flag? (value : String) : Option Bool :=
  match Text.upper (Text.trim value) with
  | "YES" | "TRUE" | "ON" | "1" => some true
  | "NO" | "FALSE" | "OFF" | "0" => some false
  | _ => none

/-- A count of at least one. -/
def positive? (value : String) : Option Nat :=
  (Numeral.count? (Text.trimChars value.toList)).filter fun n => 0 < n

end Intake
