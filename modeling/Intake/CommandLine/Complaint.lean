import Intake.Error
/-!
# Complaints

What the command line says when it fails: a message, and what lies behind
it, the nearest cause first.
-/

namespace Intake

/-- What lies behind a queue failure. -/
def QueueError.cause? : QueueError → Option String
  | .io e => some e.message
  | _ => none

/-- What lies behind a storage failure. -/
def StorageError.cause? : StorageError → Option String
  | .io e => some e.message
  | .csv text => some text
  | _ => none

/-- What lies behind a writer failure. -/
def WriterError.cause? : WriterError → Option String
  | .io e => some e.message
  | .encode text => some text
  | .queue e => e.cause?
  | _ => none

/-- What lies behind a run-level failure. -/
def LoadError.cause? : LoadError → Option String
  | .io e => some e.message
  | .writer e => e.cause?
  | .queue e => e.cause?
  | _ => none

/-- A message and what lies behind it. -/
structure Complaint where
  message : String
  causes : List String := []
  deriving DecidableEq, Repr

namespace Complaint

/-- A message behind which nothing lies. -/
def plain (message : String) : Complaint := { message := message }

/-- A complaint as the cause of another. -/
def within (c : Complaint) (message : String) : Complaint := ⟨message, c.message :: c.causes⟩

/-- A run-level failure as a complaint. -/
def ofLoad (e : LoadError) : Complaint := ⟨e.message, e.cause?.toList⟩

/-- A writer failure as a complaint. -/
def ofWriter (e : WriterError) : Complaint := ⟨e.message, e.cause?.toList⟩

/-- A storage failure as a complaint. -/
def ofStorage (e : StorageError) : Complaint := ⟨e.message, e.cause?.toList⟩

/-- A failure of the file system as a complaint. -/
def ofIo (e : IoError) : Complaint := ⟨e.message, []⟩

/-- A text whose lines after the first are indented. -/
def indented (indent text : String) : String :=
  String.intercalate ("\n" ++ indent) (text.splitOn "\n")

/-- Causes, numbered from `n`, the numbers right-aligned in five places. -/
def numbered (n : Nat) : List String → List String
  | [] => []
  | cause :: causes =>
    let number := toString n
    let blanks := String.ofList (List.replicate (5 - number.length) ' ')
    (blanks ++ number ++ ": " ++ indented "       " cause) :: numbered (n + 1) causes

/-- The lines of the causes. -/
def causeLines : List String → List String
  | [cause] => ["    " ++ indented "    " cause]
  | causes => numbered 0 causes

/-- A complaint as it is printed. -/
def text (c : Complaint) : String :=
  let behind :=
    if c.causes.isEmpty then ""
    else "\n\nCaused by:\n" ++ String.intercalate "\n" (causeLines c.causes)
  "Error: " ++ c.message ++ behind

/-- A complaint on one line. -/
def inline (c : Complaint) : String := String.intercalate ": " (c.message :: c.causes)

end Complaint
end Intake
