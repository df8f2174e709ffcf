import Intake.Proofs.Conversion.Interrupt
import Intake.Proofs.Run.Events
import Intake.Proofs.Run.Influence
/-!
# Runs that are asked to stop

A run can be asked to stop in five places: before it passes over any
record, by the row source while it passes over records, by its token when
it is about to read a record, by the row source in place of one, and by
the catalog over one (`Loader.Struck`). Wherever it is, the request is not
taken for a failure of a record, whatever the limits are: the run fails
with that very interrupt, and what it leaves are the records before
(`Loader.run_interrupted`). They are counted and told of, and if nothing
else of the run writes to the file of rejected records, that has gained
them; the writer has been given the rows of those that were accepted, and
nothing after.

A request that comes from outside while a record is dealt with is taken as
made by one of the calls for that record: of the catalog, an observer or
the writer.

The file may be shared with the writer, which then keeps its duplicates
there as well (`Loader.run_interrupted_shared`).
-/

namespace Intake
namespace Loader

variable {σ : Type}

/-! ## How far a run gets -/

/-- Some turns of the loop that go well: which records it has dealt with,
and where it stands after them. -/
inductive Turns (w : Writer σ) (rules : Rules) : Option Nat → RecordReader → State σ →
    List Record → Option Nat → RecordReader → State σ → Prop where
  | nil {left : Option Nat} {reader : RecordReader} {st : State σ} :
    Turns w rules left reader st [] left reader st
  | cons {left left' : Option Nat} {reader mid last : RecordReader} {st st₁ st' : State σ}
      {x : Record} {xs : List Record} (more : left ≠ some 0)
      (calm : st.site.token.pending = none) (next : reader.next = (.ok (some x), mid))
      (dealt : Dealt w rules x st (.ok ()) st₁)
      (rest : Turns w rules (left.map (· - 1)) mid st₁ xs left' last st') :
      Turns w rules left reader st (x :: xs) left' last st'

/-- The run is asked to stop when it is about to read a record, or in place
of the record, or over it. -/
inductive Strikes (rules : Rules) (reader : RecordReader) (st : State σ) (kind : Interrupt) :
    Prop where
  | token (pending : st.site.token.pending = some kind)
  | source {rows : RowReader} {rest : RowSource} (calm : st.site.token.pending = none)
      (reader_eq : reader = .rows rows) (next : rows.source = .error (.interrupted kind) :: rest)
  | record {x : Record} {last : RecordReader} (calm : st.site.token.pending = none)
      (next : reader.next = (.ok (some x), last)) (interrupts : rules.Interrupts x kind)

/-- A run is asked to stop when it has dealt with some records. -/
inductive Struck (l : Loader) (w : Writer σ) (source : Source) (st : State σ)
    (kind : Interrupt) : List Record → Prop where
  /-- Before it passes over any record. -/
  | before {reader : RecordReader}
      (start : RecordReader.start source l.options l.schema = .ok reader)
      (pending : st.site.token.pending = some kind) : Struck l w source st kind []
  /-- By the row source, in place of a record that it is to pass over. -/
  | skipping {rows : List SourceRow} {rest : RowSource}
      (source_eq : source = .rows (rows.map .ok ++ .error (.interrupted kind) :: rest))
      (format : l.options.format = .function) (calm : st.site.token.pending = none)
      (within : rows.length < l.options.skip) : Struck l w source st kind []
  /-- After some turns, with a record still to be attempted. -/
  | later {reader reader' last : RecordReader} {skipped : Nat} {left : Option Nat}
      {st' : State σ} {xs : List Record}
      (start : RecordReader.start source l.options l.schema = .ok reader)
      (calm : st.site.token.pending = none)
      (skip : reader.skip l.options.skip = (.ok skipped, reader'))
      (turns : Turns w l.rules l.options.limit reader' st xs left last st')
      (more : left ≠ some 0) (strikes : Strikes l.rules last st' kind) :
      Struck l w source st kind xs

/-! ## The loop -/

section Loop

variable {w : Writer σ} {rules : Rules} {left left' : Option Nat}
  {reader reader' : RecordReader} {st st' st'' : State σ} {xs ys : List Record}
  {outcome : Except LoadError Unit} {kind : Interrupt}

/-- What the loop does after some turns, it does after them. -/
theorem Turns.trace (h : Turns w rules left reader st xs left' reader' st')
    (htrace : Trace w rules left' reader' st' ys outcome st'') :
    Trace w rules left reader st (xs ++ ys) outcome st'' := by
  induction h with
  | nil => exact htrace
  | cons more calm next dealt _ ih => exact .turn more calm next dealt (ih htrace)

/-- Records that leave nothing behind: they are neither rejected nor
accepted. -/
structure Traceless (rules : Rules) (ys : List Record) : Prop where
  rejects : ∀ x ∈ ys, rules.rejects x = false
  accepts : ∀ x ∈ ys, rules.accepts x = false

theorem Traceless.rejected_append (h : Traceless rules ys) (xs : List Record) :
    rules.rejected (xs ++ ys) = rules.rejected xs := by
  have hnone : ∀ x ∈ ys, ¬ rules.rejects x = true := fun x hx => by simp [h.rejects x hx]
  unfold Rules.rejected
  rw [List.filter_append, List.filter_eq_nil_iff.mpr hnone, List.append_nil]

theorem Traceless.acceptedRows_append (h : Traceless rules ys) (xs : List Record) :
    rules.acceptedRows (xs ++ ys) = rules.acceptedRows xs := by
  have hnone : rules.acceptedRows ys = [] := by
    unfold Rules.acceptedRows
    rw [List.filter_eq_nil_iff.mpr, List.map_nil]
    intro x hx
    simp [h.accepts x hx]
  rw [Rules.acceptedRows_append, hnone, List.append_nil]

theorem Traceless.rejections_append (h : Traceless rules ys) (c : Context) (xs : List Record) :
    rules.rejections c (xs ++ ys) = rules.rejections c xs := by
  have hnone : rules.rejections c ys = [] := by
    refine List.eq_nil_of_length_eq_zero ?_
    rw [rules.length_rejections, ← List.nil_append ys, h.rejected_append]
    rfl
  rw [Rules.rejections, List.filterMap_append]
  exact (congrArg _ hnone).trans (List.append_nil _)

/-- **An interrupt ends the loop with it**, and leaves nothing of the record
that it is met over. -/
theorem Strikes.trace (h : Strikes rules reader st kind) (hleft : left ≠ some 0) :
    ∃ ys st', Trace w rules left reader st ys (.error (.interrupted kind)) st' ∧
      Traceless rules ys := by
  cases h with
  | token pending => exact ⟨[], st, .interrupted hleft pending, nofun, nofun⟩
  | @source rows rest calm reader_eq next =>
    have hnext : reader.next = (.error (.interrupted kind),
        .rows { rows with source := rest }) := by
      subst reader_eq
      simp only [RecordReader.next, RowReader.next, RowReader.pull, next, RowReader.failure]
    exact ⟨[], st, .unread hleft calm hnext, nofun, nofun⟩
  | @record x last calm next interrupts =>
    have hjudged := Rules.interrupted_iff.mpr interrupts
    refine ⟨[x], _, .stopped hleft calm next (.fatal hjudged), ?_, ?_⟩ <;>
    · intro y hy
      obtain rfl := List.mem_singleton.mp hy
      simp only [Rules.rejects, Rules.accepts, hjudged]

end Loop

/-! ## Whole runs -/

/-- What a run leaves that was asked to stop when it had dealt with some
records: it fails with that interrupt, and the rejected ones of the records
before are those that it has counted and told of. -/
structure Interrupted (l : Loader) (w : Writer σ) (kind : Interrupt) (writer : σ) (s : Site)
    (xs : List Record) (out : Except LoadFailure Summary × (σ × List Call) × Site) :
    Prop extends Reported l s xs out where
  failed : ∃ failure, out.1 = .error failure ∧ failure.error = .interrupted kind ∧
    failure.error.isInterrupt = true
  /-- The writer is given the accepted records before, and no more. -/
  given : Call.given out.2.1.2 = l.rules.acceptedRows xs
  /-- The file of rejected records, if it is the run's own, has gained
  those before, and no more. -/
  bytes : ∀ path name safe, l.Filing w safe path name s → safe writer →
    out.2.2.directory.bytesAt name
      = s.directory.bytesAt name ++ ((l.rules.rejected xs).map Record.raw).flatten

section Run

variable {l : Loader} {source : Source} {kind : Interrupt} {xs : List Record}

/-- Passing over rows up to an interrupt of their source. -/
theorem skipFrom_interrupted (wanted count : Nat) (rows : List SourceRow) (rest : RowSource)
    (kind : Interrupt) {left : Nat} (hleft : rows.length < left) :
    ∃ last, RowReader.skipFrom wanted
        { source := rows.map .ok ++ .error (.interrupted kind) :: rest, count := count } left
      = (.error (.interrupted kind), last) := by
  induction rows generalizing count left with
  | nil =>
    obtain ⟨left, rfl⟩ := Nat.exists_eq_add_one_of_ne_zero (Nat.ne_zero_of_lt hleft)
    exact ⟨_, rfl⟩
  | cons row rows ih =>
    obtain ⟨left, rfl⟩ := Nat.exists_eq_add_one_of_ne_zero (Nat.ne_zero_of_lt hleft)
    exact ih (count + 1) (Nat.lt_of_succ_lt_succ hleft)

/-- A run that is asked to stop ends with the interrupt, wherever it is met,
and all it has dealt with besides is one record at most. -/
theorem Struck.load {w : Writer σ} {st : State σ} (h : l.Struck w source st kind xs) :
    ∃ skipped left reader ys outcome st', Trace w l.rules left reader st (xs ++ ys) outcome st' ∧
      Traceless l.rules ys ∧
      l.load w source st = (skipped, .error (.interrupted kind), st') := by
  cases h with
  | @before reader start pending =>
    exact ⟨0, some 0, reader, [], .ok (), st, .spent, ⟨nofun, nofun⟩,
      load_of_pending start pending⟩
  | @skipping rows rest source_eq format calm within =>
    obtain ⟨last, hskip⟩ := skipFrom_interrupted l.options.skip 0 rows rest kind within
    subst source_eq
    refine ⟨0, some 0, .rows last, [], .ok (), st, .spent, ⟨nofun, nofun⟩, ?_⟩
    apply load_of_skip_error (RecordReader.Started.rows format).start calm
    simp only [RecordReader.skip, RowReader.skip, hskip]
  | @later reader reader' last skipped left st' xs start calm skip turns more strikes =>
    obtain ⟨ys, st'', htrace, htraceless⟩ := strikes.trace (w := w) more
    have hwhole := turns.trace htrace
    obtain ⟨xs', outcome, last', htrace', hload⟩ := load_of_skip (w := w) start calm skip
    obtain ⟨rfl, rfl⟩ := hwhole.unique htrace'
    exact ⟨skipped, _, _, ys, _, _, hwhole, htraceless, hload⟩

/-- **A run that is asked to stop fails with the interrupt, and leaves what
it had come to before**, whatever the limits are and wherever it is asked.
The writer may be any that leaves alone what observers note, as one over a
storage does. -/
theorem run_interrupted {w : Writer σ} (hw : w.Quiet) {writer : σ} {s : Site}
    (h : l.Struck w.noting source
      ⟨(writer, []), l.rejects, l.observers (.started l.context) s⟩ kind xs) :
    l.Interrupted w kind writer s xs (l.run w.noting source (writer, []) s) := by
  obtain ⟨skipped, left, reader, ys, outcome, st', htrace, htraceless, hload⟩ := h.load
  have hfailed : ∃ failure, (l.run w.noting source (writer, []) s).1 = .error failure ∧
      failure.error = .interrupted kind ∧
      Call.given (l.run w.noting source (writer, []) s).2.1.2 = Call.given st'.writer.2 := by
    unfold Loader.run
    dsimp only
    rw [hload]
    exact ⟨_, rfl, rfl, given_abandon rfl⟩
  obtain ⟨failure, hout, herror, hgiven⟩ := hfailed
  obtain ⟨hcounted, hheard⟩ := ((Told.start l s _).trace hw.noting htrace).run hw.noting hload
  rw [List.nil_append, htraceless.rejected_append] at hcounted
  refine ⟨⟨hcounted, fun name hname => ?_⟩, ⟨failure, hout, herror, ?_⟩, ?_, ?_⟩
  · rw [hheard name hname, List.nil_append, htraceless.rejections_append]
  · rw [herror]
    rfl
  · rw [hgiven, htrace.given, htraceless.acceptedRows_append]
    rfl
  · intro path name safe hfiling hwriter
    have hleaves := ((hfiling.start hwriter).trace hfiling htrace).run hfiling hload
    rw [hleaves.bytes, List.nil_append, htraceless.rejected_append]

end Run

/-! ## Whole numbers -/

/-- One more turn, in which what is done about the record goes well. -/
theorem Turns.deal {w : Writer σ} {rules : Rules} {left left' : Option Nat}
    {reader mid last : RecordReader} {st st' : State σ} {x : Record} {xs : List Record}
    (more : left ≠ some 0) (calm : st.site.token.pending = none)
    (next : reader.next = (.ok (some x), mid)) (well : (deal w rules x st).1 = .ok ())
    (rest : Turns w rules (left.map (· - 1)) mid (Loader.deal w rules x st).2 xs left' last st') :
    Turns w rules left reader st (x :: xs) left' last st' :=
  .cons more calm next (dealt_iff.mpr (Prod.ext well rfl)) rest

/-- A row of one field. -/
def cell (text : String) : SourceRow := [some (Bytes.ascii text)]

/-- A load of whole numbers from rows, which puts up with any number of
records that are none and keeps them in a file; its observer notes what it
hears. -/
def integerRows (path : String) : Loader where
  options :=
    { format := .function, parseErrors := .unlimited, parseBadFile := some path }
  schema := integers.schema
  observer := .all [.noting "test", .console]

/-- A load whose catalog asks for it to be stopped over a 3. -/
def heedfulRows : Loader :=
  { integerRows "parse.bad" with
    catalog :=
      { Catalog.plain with
        read := fun column bs =>
          if bs = Bytes.ascii "3" then { answer := .error (.interrupted .shutdown) }
          else Catalog.plain.read column bs } }

theorem filing_heedfulRows : heedfulRows.Filing LocalWriter.writer
    (LocalWriter.Elsewhere (· = "parse.bad") {}) "parse.bad" "parse.bad" {} where
  badFile := rfl
  opens := by decide +kernel
  observers _ := by
    refine Observer.spares_all fun o ho => ?_
    rcases List.mem_cons.mp ho with rfl | ho
    · exact Observer.spares_noting "test"
    · exact List.mem_singleton.mp ho ▸ Observer.spares_console
  writer := LocalWriter.apart _ _

/-- Of two records before the 3 one is no number, and the other still waits
in its batch. -/
theorem run_interrupted_batched :
    let source : Source := .rows (["1", "x", "3", "5"].map fun text => .ok (cell text))
    let writer := { keyedWriter "duplicate.bad" with batch := some 10 }
    let start : State (LocalWriter × List Call) := ⟨(writer, []), heedfulRows.rejects,
      heedfulRows.observers (.started heedfulRows.context) {}⟩
    let run := heedfulRows.run LocalWriter.writer.noting source (writer, []) {}
    let xs := [RowReader.record 1 (cell "1"), RowReader.record 2 (cell "x")]
    heedfulRows.Struck LocalWriter.writer.noting source start .shutdown xs ∧
      heedfulRows.Interrupted LocalWriter.writer .shutdown writer {} xs run ∧
      run.1 = .error ⟨{ parseRejected := 1 }, .interrupted .shutdown⟩ ∧
      (run.2.2.heard "test").length = 3 ∧
      run.2.2.directory.bytesAt "parse.bad" = Bytes.ascii "x\n" := by
  intro source writer start run xs
  have hturns : Turns LocalWriter.writer.noting heedfulRows.rules none
      (.rows { source := ["1", "x", "3", "5"].map fun text => .ok (cell text) }) start xs none
      _ _ :=
    .deal nofun rfl rfl (by decide +kernel)
      (.deal nofun (by decide +kernel) rfl (by decide +kernel) .nil)
  have hinterrupts : heedfulRows.rules.Interrupts (RowReader.record 3 (cell "3")) .shutdown := by
    refine .read rfl (by decide) (show _ = [] ++ _ :: [] from rfl) nofun ?_
    exact ⟨Bytes.ascii "3", rfl, rfl, by with_unfolding_all rfl⟩
  have hstruck : heedfulRows.Struck LocalWriter.writer.noting source start .shutdown xs :=
    .later rfl rfl rfl hturns nofun (.record (by decide +kernel) rfl hinterrupts)
  have hrun := run_interrupted LocalWriter.quiet hstruck
  have hnotes : heedfulRows.observer.Notes "test" :=
    (Observer.notes_noting "test").all fun _ ho =>
      List.mem_singleton.mp ho ▸ Observer.quiet_console
  have helsewhere : writer.Elsewhere (· = "parse.bad") {} := by
    refine ⟨nofun, nofun, ?_⟩
    rintro _ name ⟨⟩ hopen rfl
    exact absurd hopen (by decide +kernel)
  refine ⟨hstruck, hrun, by decide +kernel, ?_, ?_⟩
  · rw [hrun.heard "test" hnotes]
    decide +kernel
  · rw [hrun.bytes _ _ _ filing_heedfulRows helsewhere]
    decide +kernel

/-- A load that is stopped by its row source, and whose writer keeps the rows
that are left out in the file of rejected records: that holds more than the
one record that was rejected. -/
theorem run_interrupted_shared :
    let l := integerRows "bad"
    let source : Source := .rows ((["1", "x", "1"].map fun text => .ok (cell text))
      ++ [.error (.interrupted .cancelled)])
    let start : State (LocalWriter × List Call) := ⟨(keyedWriter "bad", []), l.rejects,
      l.observers (.started l.context) {}⟩
    let run := l.run LocalWriter.writer.noting source (keyedWriter "bad", []) {}
    let xs := [RowReader.record 1 (cell "1"), RowReader.record 2 (cell "x"),
      RowReader.record 3 (cell "1")]
    l.Struck LocalWriter.writer.noting source start .cancelled xs ∧
      (l.rules.rejected xs).map Record.raw = [Bytes.ascii "x\n"] ∧
      run.1 = .error ⟨{ loaded := 1, parseRejected := 1, duplicateNew := 1 },
        .interrupted .cancelled⟩ ∧
      run.2.2.directory.bytesAt "bad" = Bytes.ascii "x\n1\n" := by
  intro l source start run xs
  have hturns : Turns LocalWriter.writer.noting l.rules none
      (.rows { source := (["1", "x", "1"].map fun text => .ok (cell text))
        ++ [.error (.interrupted .cancelled)] }) start xs none _ _ :=
    .deal nofun rfl rfl (by decide +kernel)
      (.deal nofun (by decide +kernel) rfl (by decide +kernel)
        (.deal nofun (by decide +kernel) rfl (by decide +kernel) .nil))
  exact ⟨.later rfl rfl rfl hturns nofun (.source (by decide +kernel) rfl rfl),
    by decide +kernel, by decide +kernel, by decide +kernel⟩

end Loader
end Intake
