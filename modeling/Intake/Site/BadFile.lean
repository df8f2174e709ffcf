import Intake.Site.Directory
/-!
# Bad-record files

Rejected records are added to a file as they were read. The file is
opened at the first of them, and what is added waits in memory until
enough has come together or the file is flushed.
-/

namespace Intake

/-- A file of rejected records, or a place where they vanish. -/
structure BadFile where
  /-- The file's name, if records are kept. -/
  path : Option String := none
  /-- The name under which it was opened. -/
  opened : Option String := none
  /-- Bytes that wait to be written. -/
  waiting : Bytes := []
  /-- Records added. -/
  written : Nat := 0
  deriving DecidableEq, Repr

namespace BadFile

/-- How many bytes may wait. -/
def capacity : Nat := 8192

/-- Writes what waits. -/
def flush (b : BadFile) (d : Directory) : BadFile × Directory :=
  match b.opened with
  | none => (b, d)
  | some name => ({ b with waiting := [] }, d.append name b.waiting)

/-- Adds bytes to the open file: they wait, unless they are too many to. -/
def write (b : BadFile) (name : String) (bs : Bytes) (d : Directory) : BadFile × Directory :=
  let (b, d) := if capacity < b.waiting.length + bs.length then b.flush d else (b, d)
  if capacity ≤ bs.length then (b, d.append name bs)
  else ({ b with waiting := b.waiting ++ bs }, d)

/-- Adds one record. -/
def append (b : BadFile) (record : Bytes) (d : Directory) :
    Except IoError Unit × BadFile × Directory :=
  match b.path with
  | none => (.ok (), b, d)
  | some path =>
    match b.opened with
    | some name =>
      let (b, d) := b.write name record d
      (.ok (), { b with written := b.written + 1 }, d)
    | none =>
      match d.openToAppend path with
      | (.error e, d) => (.error e, b, d)
      | (.ok name, d) =>
        let (b, d) := { b with opened := some name }.write name record d
        (.ok (), { b with written := b.written + 1 }, d)

end BadFile
end Intake
