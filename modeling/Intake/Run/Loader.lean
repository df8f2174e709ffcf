import Intake.Conversion.Checking
import Intake.Record.Reader
import Intake.Run.Rejects
import Intake.Writer.Basic
/-!
# Runs

A run reads records, builds and checks a row from each, and hands the
rows to a writer, until the input ends, the limit is reached or something
stops it. Then it closes the writer and reports the counts. Between any
two records it looks whether it has been asked to stop.
-/

namespace Intake

/-- A run to be made. -/
structure Loader where
  options : Options
  schema : Schema
  catalog : Catalog := .plain
  transcoder : Transcoder := .known
  observer : Observer := .silent
  /-- Failures of at least this severity are passed on at once. -/
  alertAt : Severity := .critical
  /-- The input's name in reports. -/
  inputName : String := "-"

/-- A run that failed: what stopped it, and the counts until then. -/
structure LoadFailure where
  summary : Summary
  error : LoadError
  deriving DecidableEq, Repr

/-- The wording of a failed run is that of its error. -/
def LoadFailure.message (f : LoadFailure) : String := f.error.message

namespace Summary

/-- The counts with those of a writer. -/
def withCounts (s : Summary) (c : Counts) : Summary :=
  { s with loaded := c.inserted, duplicateNew := c.duplicateNew, duplicateOld := c.duplicateOld }

end Summary

namespace Loader

/-- What a run's rows are held to. -/
def rules (l : Loader) : Rules :=
  { schema := l.schema
    catalog := l.catalog
    transcoder := l.transcoder
    encoding := l.options.encoding
    checkConstraints := l.options.checkConstraints }

/-- What a run is about. -/
def context (l : Loader) : Context := ⟨l.inputName, l.options.format, l.options.writer⟩

/-- The run's observer, and the log file where there is one. -/
def observers (l : Loader) : Observer :=
  match l.options.logFile with
  | some path => .all [l.observer, .file path]
  | none => l.observer

/-- The parts of a run that change. -/
structure State (σ : Type) where
  writer : σ
  rejects : Rejects
  site : Site

/-- Reading and writing records, from the reader on; `left` records may
still be attempted, if there is a limit. Fuel bounds the number of
records, which the input bounds as well. -/
def records {σ : Type} (w : Writer σ) (rules : Rules) : (fuel : Nat) → (left : Option Nat) →
    RecordReader → Row → State σ → Except LoadError Unit × State σ
  | 0, _, _, _, st => (.ok (), st)
  | fuel + 1, left, reader, row, st =>
    if left = some 0 then (.ok (), st)
    else
      match st.site.token.pending with
      | some kind => (.error (.interrupted kind), st)
      | none =>
        match reader.next with
        | (.error e, _) => (.error e, st)
        | (.ok none, _) => (.ok (), st)
        | (.ok (some record), reader) =>
          let attempt := rules.attempt record row
          let site := st.site.request attempt.requests
          match st.rejects.absorb record.number record.raw attempt.outcome site with
          | (.error e, rejects, site) => (.error e, { st with rejects := rejects, site := site })
          | (.ok false, rejects, site) =>
            records w rules fuel (left.map (· - 1)) reader attempt.row
              { st with rejects := rejects, site := site }
          | (.ok true, rejects, site) =>
            match w.insert st.writer attempt.row record.raw site with
            | (.error e, writer, site) => (.error (.writer e), ⟨writer, rejects, site⟩)
            | (.ok (), writer, site) =>
              records w rules fuel (left.map (· - 1)) reader attempt.row
                ⟨writer, rejects, site⟩

/-- At most how many records a source has. -/
def bound : Source → Nat
  | .bytes s => s.rest.length + 2
  | .rows s => s.length + 2

/-- Everything up to the end of the input: the number of records passed
over, and how the rest went. -/
def load {σ : Type} (l : Loader) (w : Writer σ) (source : Source) (st : State σ) :
    Nat × Except LoadError Unit × State σ :=
  match RecordReader.start source l.options l.schema with
  | .error e => (0, .error e, st)
  | .ok reader =>
    match st.site.token.pending with
    | some kind => (0, .error (.interrupted kind), st)
    | none =>
      match reader.skip l.options.skip with
      | (.error e, _) => (0, .error e, st)
      | (.ok skipped, reader) =>
        (skipped,
          records w l.rules (bound source) l.options.limit reader (Row.blank l.schema.width) st)

section Loading

variable {σ : Type} {l : Loader} {w : Writer σ} {source : Source} {st : State σ}
  {reader reader' : RecordReader} {e : LoadError}

theorem load_of_start_error (hstart : RecordReader.start source l.options l.schema = .error e) :
    l.load w source st = (0, .error e, st) := by
  unfold load
  rw [hstart]

/-- A run that is asked to stop before it reads. -/
theorem load_of_pending (hstart : RecordReader.start source l.options l.schema = .ok reader)
    {kind : Interrupt} (hpending : st.site.token.pending = some kind) :
    l.load w source st = (0, .error (.interrupted kind), st) := by
  unfold load
  rw [hstart, hpending]

theorem load_of_skip_error (hstart : RecordReader.start source l.options l.schema = .ok reader)
    (hcalm : st.site.token.pending = none)
    (hskip : (reader.skip l.options.skip).1 = .error e) :
    l.load w source st = (0, .error e, st) := by
  unfold load
  rw [hstart, hcalm]
  dsimp only
  generalize reader.skip l.options.skip = out at hskip
  obtain ⟨_, _⟩ := out
  subst hskip
  rfl

theorem load_of_skip_ok (hstart : RecordReader.start source l.options l.schema = .ok reader)
    (hcalm : st.site.token.pending = none) {skipped : Nat}
    (hskip : reader.skip l.options.skip = (.ok skipped, reader')) :
    l.load w source st = (skipped, records w l.rules (bound source) l.options.limit reader'
      (Row.blank l.schema.width) st) := by
  unfold load
  rw [hstart, hcalm]
  dsimp only
  rw [hskip]

end Loading

/-- Closing the account of rejects and the writer after all records. -/
def finish {σ : Type} (w : Writer σ) (st : State σ) : Except LoadError Counts × State σ :=
  match st.rejects.flush st.site with
  | (rejects, site) =>
    match w.close st.writer false site with
    | (.error e, writer, site) => (.error (.writer e), ⟨writer, rejects, site⟩)
    | (.ok counts, writer, site) => (.ok counts, ⟨writer, rejects, site⟩)

/-- Closing in error mode. The writer's counts are taken if it has any. -/
def abandon {σ : Type} (w : Writer σ) (st : State σ) : Option Counts × State σ :=
  match st.rejects.flush st.site with
  | (rejects, site) =>
    match w.close st.writer true site with
    | (.error _, writer, site) => (none, ⟨writer, rejects, site⟩)
    | (.ok counts, writer, site) => (some counts, ⟨writer, rejects, site⟩)

section Closing

variable {σ : Type} {w : Writer σ} {st : State σ} {last : Except WriterError Counts} {writer : σ}
  {site : Site}

theorem finish_of_close
    (h : w.close st.writer false (st.rejects.flush st.site).2 = (last, writer, site)) :
    finish w st = (last.mapError .writer, ⟨writer, (st.rejects.flush st.site).1, site⟩) := by
  unfold finish
  dsimp only
  rw [h]
  cases last <;> rfl

theorem abandon_of_close
    (h : w.close st.writer true (st.rejects.flush st.site).2 = (last, writer, site)) :
    abandon w st = (last.toOption, ⟨writer, (st.rejects.flush st.site).1, site⟩) := by
  unfold abandon
  dsimp only
  rw [h]
  cases last <;> rfl

end Closing

/-- Reports a failed run. -/
def report (l : Loader) (e : LoadError) (summary : Summary) (s : Site) : Site :=
  let severity := Severity.of e
  let s :=
    if e.isInterrupt then
      s.warn ("load of " ++ l.inputName ++ " interrupted: " ++ e.message ++ "\n" ++ summary.text)
    else
      s.fail ("load of " ++ l.inputName ++ " failed: " ++ e.message ++ "\n" ++ summary.text)
  let s := l.observers (.failed l.context severity e summary) s
  if l.alertAt.rank ≤ severity.rank then l.observers (.alerted l.context severity e summary) s
  else s

/-- The account of rejects at the start of a run. -/
def rejects (l : Loader) : Rejects :=
  { limit := l.options.parseErrors
    verbose := l.options.verbose
    file := { path := l.options.parseBadFile }
    context := l.context
    observer := l.observers }

/-- Makes the run. -/
def run {σ : Type} (l : Loader) (w : Writer σ) (source : Source) (writer : σ) (s : Site) :
    Except LoadFailure Summary × σ × Site :=
  let st : State σ := ⟨writer, l.rejects, l.observers (.started l.context) s⟩
  match l.load w source st with
  | (skipped, loaded, st) =>
    let summary : Summary := { skipped := skipped, parseRejected := st.rejects.count }
    let closed : Except LoadError Counts × State σ :=
      match loaded with
      | .error e => (.error e, st)
      | .ok () => finish w st
    let st := closed.2
    match closed.1 with
    | .ok counts =>
      let summary := summary.withCounts counts
      (.ok summary, st.writer, l.observers (.succeeded l.context summary) st.site)
    | .error e =>
      let (counts, st) := abandon w st
      let summary := match counts with
        | some c => summary.withCounts c
        | none => summary
      (.error ⟨summary, e⟩, st.writer, l.report e summary st.site)

end Loader
end Intake
