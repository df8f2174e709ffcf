import Intake.Options.Settings
import Intake.Storage.Basic
import Intake.Writer.Basic
import Intake.Writer.Slots
/-!
# Writers over a storage

The direct writer stores each row as it comes, the batched one a number
of rows at a time. Rows of a batch that fails stay pending.
-/

namespace Intake

/-- A writer over a storage. -/
structure LocalWriter where
  storage : Storage
  duplicates : Duplicates
  /-- The number of rows of a batch, where there are batches. -/
  batch : Option Nat := none
  /-- Where rows wait for their batch. -/
  slots : Slots := .empty
  closed : Bool := false

namespace LocalWriter

/-- The rows that wait for their batch, with their records. -/
def pending (w : LocalWriter) : List (Row × Bytes) := w.slots.entries

/-- A writer, its storage emptied first where that is wanted. A batch has
one row at least. -/
def start (storage : Storage) (duplicates : Duplicates) (batch : Option Nat) (truncate : Bool)
    (s : Site) : Except WriterError LocalWriter × Storage × Site :=
  let writer (storage : Storage) : LocalWriter :=
    { storage := storage, duplicates := duplicates, batch := batch.map (max 1) }
  if truncate then
    match storage.truncate s.directory with
    | (.error e, storage, directory) =>
      (.error (.ofStorage e), storage, { s with directory := directory })
    | (.ok (), storage, directory) =>
      (.ok (writer storage), storage, { s with directory := directory })
  else (.ok (writer storage), storage, s)

/-- The account of duplicates that the options ask for. -/
def duplicatesFor (o : Options) : Duplicates :=
  { policy := o.onDuplicate
    limit := o.duplicateErrors
    file := { path := o.duplicateBadFile } }

/-- The writer that the options ask for. -/
def ofOptions (o : Options) (storage : Storage) (s : Site) :
    Except LoadError LocalWriter × Storage × Site :=
  let built (batch : Option Nat) :=
    match start storage (duplicatesFor o) batch o.truncate s with
    | (.ok w, storage, s) => (.ok w, storage, s)
    | (.error e, storage, s) => (.error (.writer e), storage, s)
  match o.writer with
  | .direct => built none
  | .buffered => built (some o.batchSize)
  | .parallel => (.error (.config "the parallel writer requires a consumer"), storage, s)

/-- Accounts for what became of several rows, up to the first failure. -/
def recordAll (t : Duplicates) (s : Site) :
    List (Outcome × Bytes) → Except WriterError Unit × Duplicates × Site
  | [] => (.ok (), t, s)
  | (outcome, raw) :: rest =>
    match t.record outcome raw s with
    | (.error e, t, s) => (.error e, t, s)
    | (.ok (), t, s) => recordAll t s rest

/-- Stores the rows that wait. Each outcome belongs to the record in its
slot. -/
def flush (w : LocalWriter) (s : Site) : Except WriterError Unit × LocalWriter × Site :=
  if w.slots.used = 0 then (.ok (), w, s)
  else
    match w.storage.insertAll w.duplicates.keep s.directory w.slots.batch with
    | (.error e, storage, directory) =>
      (.error (.ofStorage e), { w with storage := storage }, { s with directory := directory })
    | (.ok outcomes, storage, directory) =>
      let s := { s with directory := directory }
      match recordAll w.duplicates s (outcomes.zip w.slots.raws) with
      | (outcome, duplicates, s) =>
        (outcome,
          { w with storage := storage, duplicates := duplicates, slots := w.slots.clear }, s)

/-- Stores one row at once. -/
def insertDirect (w : LocalWriter) (row : Row) (raw : Bytes) (s : Site) :
    Except WriterError Unit × LocalWriter × Site :=
  match w.storage.insert row w.duplicates.keep s.directory with
  | (.error e, storage, directory) =>
    (.error (.ofStorage e), { w with storage := storage }, { s with directory := directory })
  | (.ok outcome, storage, directory) =>
    match w.duplicates.record outcome raw { s with directory := directory } with
    | (outcome, duplicates, s) =>
      (outcome, { w with storage := storage, duplicates := duplicates }, s)

/-- Lets one row wait for its batch. -/
def hold (w : LocalWriter) (row : Row) (raw : Bytes) : LocalWriter :=
  { w with slots := w.slots.put row raw }

/-- Takes one row. -/
def insert (w : LocalWriter) (row : Row) (raw : Bytes) (s : Site) :
    Except WriterError Unit × LocalWriter × Site :=
  if w.closed then (.error .closed, w, s)
  else
    match w.batch with
    | none => w.insertDirect row raw s
    | some size =>
      let w := w.hold row raw
      if size ≤ w.slots.used then w.flush s else (.ok (), w, s)

/-- Finishes the storage and the account, all rows being stored. -/
def finish (w : LocalWriter) (s : Site) : Except WriterError Counts × LocalWriter × Site :=
  match w.storage.finish s.directory with
  | (.error e, storage, directory) =>
    (.error (.ofStorage e), { w with storage := storage }, { s with directory := directory })
  | (.ok (), storage, directory) =>
    match w.duplicates.flush { s with directory := directory } with
    | (duplicates, s) =>
      let w := { w with storage := storage, duplicates := duplicates }
      (.ok w.duplicates.counts, w, s)

/-- Ends the writing. A second time it only reports the counts. -/
def close (w : LocalWriter) (onError : Bool) (s : Site) :
    Except WriterError Counts × LocalWriter × Site :=
  if w.closed then (.ok w.duplicates.counts, w, s)
  else
    let w := { w with closed := true }
    if onError then
      match w.duplicates.flush s with
      | (duplicates, s) =>
        let w := { w with duplicates := duplicates, slots := w.slots.clear }
        (.ok w.duplicates.counts, w, s)
    else
      match w.flush s with
      | (.error e, w, s) => (.error e, w, s)
      | (.ok (), w, s) => w.finish s

/-- Lets go of the writer; what waits to be written to files is written. -/
def release (w : LocalWriter) (s : Site) : LocalWriter × Site :=
  match w.storage.release s.directory with
  | (storage, directory) =>
    match w.duplicates.flush { s with directory := directory } with
    | (duplicates, s) => ({ w with storage := storage, duplicates := duplicates }, s)

/-- A writer over a storage as a writer. -/
def writer : Writer LocalWriter := ⟨insert, close⟩

end LocalWriter
end Intake
