import Intake.Site.BadFile
import Intake.Site.Basic
import Intake.Storage.Table
/-!
# Duplicate keys

Only the storage knows whether a row's key is stored already, so
duplicates are accounted for where rows are written. The policy says
which row stays; the row that does not is counted, logged and kept in a
file, and too many of them are an error.
-/

namespace Intake

/-- What a writer has done with its rows. -/
structure Counts where
  /-- Rows stored, not counting those that took another's place. -/
  inserted : Nat := 0
  /-- New rows left out because their key was stored. -/
  duplicateNew : Nat := 0
  /-- Stored rows replaced by new ones of their key. -/
  duplicateOld : Nat := 0
  deriving DecidableEq, Repr

/-- The account of duplicate keys. -/
structure Duplicates where
  policy : DuplicatePolicy
  limit : Limit
  file : BadFile := {}
  counts : Counts := {}
  deriving DecidableEq, Repr

namespace Duplicates

/-- Which row the storage keeps. -/
def keep (t : Duplicates) : Keep :=
  match t.policy with
  | .keepNew => .new
  | .keepOld => .old
  | .error => .old

/-- Writes what waits to be written to the file. -/
def flush (t : Duplicates) (s : Site) : Duplicates × Site :=
  match t.file.flush s.directory with
  | (file, directory) => ({ t with file := file }, { s with directory := directory })

/-- Adds a record to the file, then holds the count to the limit. -/
def reject (t : Duplicates) (record : Bytes) (s : Site) :
    Except WriterError Unit × Duplicates × Site :=
  match t.file.append record s.directory with
  | (.error e, file, directory) =>
    (.error (.io e), { t with file := file }, { s with directory := directory })
  | (.ok (), file, directory) =>
    let t := { t with file := file }
    let s := { s with directory := directory }
    let count := t.counts.duplicateNew + t.counts.duplicateOld
    if t.limit.exceededBy count then
      match t.flush s with
      | (t, s) => (.error (.duplicateLimit count t.limit.number), t, s)
    else (.ok (), t, s)

/-- Accounts for what became of one row. `raw` is the row's record. -/
def record (t : Duplicates) (outcome : Outcome) (raw : Bytes) (s : Site) :
    Except WriterError Unit × Duplicates × Site :=
  match outcome with
  | .inserted =>
    (.ok (), { t with counts := { t.counts with inserted := t.counts.inserted + 1 } }, s)
  | .discarded key =>
    if t.policy = .error then (.error (.duplicateKey key), t, s)
    else
      let counts := { t.counts with duplicateNew := t.counts.duplicateNew + 1 }
      let s := s.warn ("duplicate key value " ++ key ++ ": new row not loaded")
      { t with counts := counts }.reject raw s
  | .replaced key old =>
    let counts := { t.counts with duplicateOld := t.counts.duplicateOld + 1 }
    let s := s.warn ("duplicate key value " ++ key ++ ": existing row replaced")
    { t with counts := counts }.reject old.csvLine s

end Duplicates
end Intake
