import Intake.Storage.CsvFile
import Intake.Storage.Table
/-!
# Storages

Where accepted rows end up: a table in memory or a file. Each call of a
storage may fail, and the storage says which calls do (`failures`), so
that what a writer makes of a failing storage can be said for every
pattern of failures. A call that fails does nothing.
-/

namespace Intake

/-- What a storage is asked to do. -/
inductive StorageCall where
  | insert
  | truncate
  | finish
  deriving DecidableEq, Repr

/-- What rows are stored in. -/
inductive Medium where
  | table (t : Table)
  | file (f : CsvFile)
  deriving Repr

/-- A storage. -/
structure Storage where
  medium : Medium
  /-- The failure of the call of a kind, counted from 1, if it fails. -/
  failures : StorageCall → Nat → Option StorageError := fun _ _ => none
  /-- Calls so far. -/
  inserts : Nat := 0
  truncates : Nat := 0
  finishes : Nat := 0

namespace Storage

/-- Stores one row. -/
def insert (s : Storage) (row : Row) (keep : Keep) (d : Directory) :
    Except StorageError Outcome × Storage × Directory :=
  let s := { s with inserts := s.inserts + 1 }
  match s.failures .insert s.inserts with
  | some e => (.error e, s, d)
  | none =>
    match s.medium with
    | .table t =>
      match t.insert row keep with
      | (outcome, t) => (.ok outcome, { s with medium := .table t }, d)
    | .file f =>
      match f.insert row d with
      | (.error e, f, d) => (.error e, { s with medium := .file f }, d)
      | (.ok (), f, d) => (.ok .inserted, { s with medium := .file f }, d)

/-- Stores rows in order, up to the first that fails. -/
def insertAll (s : Storage) (keep : Keep) (d : Directory) :
    List Row → Except StorageError (List Outcome) × Storage × Directory
  | [] => (.ok [], s, d)
  | row :: rows =>
    match s.insert row keep d with
    | (.error e, s, d) => (.error e, s, d)
    | (.ok outcome, s, d) =>
      match s.insertAll keep d rows with
      | (.error e, s, d) => (.error e, s, d)
      | (.ok outcomes, s, d) => (.ok (outcome :: outcomes), s, d)

/-- Removes every row. -/
def truncate (s : Storage) (d : Directory) : Except StorageError Unit × Storage × Directory :=
  let s := { s with truncates := s.truncates + 1 }
  match s.failures .truncate s.truncates with
  | some e => (.error e, s, d)
  | none =>
    match s.medium with
    | .table t => (.ok (), { s with medium := .table t.truncate }, d)
    | .file f =>
      match f.truncate d with
      | (f, d) => (.ok (), { s with medium := .file f }, d)

/-- Makes every row so far last. -/
def finish (s : Storage) (d : Directory) : Except StorageError Unit × Storage × Directory :=
  let s := { s with finishes := s.finishes + 1 }
  match s.failures .finish s.finishes with
  | some e => (.error e, s, d)
  | none =>
    match s.medium with
    | .table _ => (.ok (), s, d)
    | .file f =>
      match f.flush d with
      | (f, d) => (.ok (), { s with medium := .file f }, d)

/-- Lets go of the storage; what waits to be written is written. -/
def release (s : Storage) (d : Directory) : Storage × Directory :=
  match s.medium with
  | .table _ => (s, d)
  | .file f =>
    match f.flush d with
    | (f, d) => ({ s with medium := .file f }, d)

/-- The table, where the storage is one. -/
def table? (s : Storage) : Option Table :=
  match s.medium with
  | .table t => some t
  | .file _ => none

end Storage
end Intake
