import Intake.Site.BadFile
import Intake.Site.Observer
import Intake.Text.Quoted
/-!
# Rejected records

A record that fails is counted, logged, reported and kept in a file, and
the run goes on until there are too many. The record that is one too many
is still kept. A failure that must stop the run is none of this account's
business.
-/

namespace Intake

/-- The account of rejected records. -/
structure Rejects where
  limit : Limit
  count : Nat := 0
  /-- The log quotes the records. -/
  verbose : Bool := false
  file : BadFile := {}
  context : Context
  observer : Observer

namespace Rejects

/-- What the log says about a rejected record. -/
def logText (r : Rejects) (raw : Bytes) (message : String) : String :=
  if r.verbose then message ++ "; record: " ++ Text.quoted (Utf8.lossy raw) else message

/-- Writes what waits to be written to the file. -/
def flush (r : Rejects) (s : Site) : Rejects × Site :=
  match r.file.flush s.directory with
  | (file, directory) => ({ r with file := file }, { s with directory := directory })

/-- Accounts for one rejected record. -/
def reject (r : Rejects) (record : Nat) (raw : Bytes) (rejection : Rejection) (s : Site) :
    Except LoadError Unit × Rejects × Site :=
  let r := { r with count := r.count + 1 }
  let s := s.warn (r.logText raw rejection.message)
  let s := r.observer (.rejected r.context rejection.kind record rejection.message) s
  match r.file.append raw s.directory with
  | (.error e, file, directory) =>
    (.error (.io e), { r with file := file }, { s with directory := directory })
  | (.ok (), file, directory) =>
    let r := { r with file := file }
    let s := { s with directory := directory }
    if r.limit.exceededBy r.count then
      match r.flush s with
      | (r, s) => (.error (.parseErrorLimit r.count r.limit.number), r, s)
    else (.ok (), r, s)

/-- Accounts for the outcome of one record: whether it was accepted. -/
def absorb (r : Rejects) (record : Nat) (raw : Bytes) (outcome : Except RowError Unit)
    (s : Site) : Except LoadError Bool × Rejects × Site :=
  match outcome with
  | .ok () => (.ok true, r, s)
  | .error (.fatal e) => (.error e, r, s)
  | .error (.rejected rejection) =>
    match r.reject record raw rejection s with
    | (.error e, r, s) => (.error e, r, s)
    | (.ok (), r, s) => (.ok false, r, s)

end Rejects
end Intake
