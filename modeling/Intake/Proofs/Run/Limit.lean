import Intake.Proofs.Run.Loop
import Intake.Proofs.Run.Noting
import Intake.Proofs.Run.Trace
/-!
# Runs and their limit of rejected records

How a run ends that only rejected records can trouble
(`Loader.run_to_limit`). If no more are rejected than it puts up with, the
writer is given all accepted rows, the file gains the bytes of the
rejected records, and the run succeeds if the writer can then be closed.
If more are, the run fails at the first record that is too many: the
writer has been given what was accepted before that record and is closed
in error mode, and the file has gained what was rejected, that record
included.

Both provisos are needed (`Loader.run_within_disturbed`): a writer that
takes every row may still fail when it is closed, and a log file may be
the file of rejected records.
-/

namespace Intake
namespace Loader

variable {σ : Type} (l : Loader)

/-! ## Closing -/

section Closing

variable {l} {w : Writer σ} {accepting : σ → Prop} {path name : String} {s : Site}
  {xs : List Record} {st : State (σ × List Call)}

/-- The writer is closed, and all that was rejected is in the file. -/
theorem Midway.finish (h : l.Midway accepting path name s xs st)
    (hl : l.Undisturbed w accepting path name s) :
    ∃ last st', Loader.finish w.noting st = (last.mapError .writer, st') ∧
      st'.writer.2 = st.writer.2 ++ [.close false last] ∧
      st'.site.directory.bytesAt name
        = s.directory.bytesAt name ++ (l.rules.rejectedBytes xs).flatten ∧
      l.Accounted path name s xs st' ∧
      ∀ s', s.Alongside s' → s'.Spares name (w.close st'.writer.1 true s').2.2 := by
  obtain ⟨hkept, hbeside, hbytes, -⟩ := h.kept.flush
  have halong := h.beside.trans hbeside
  have hspares := hl.writer.close h.accepting halong false
  have hagain := fun s' (hs' : s.Alongside s') => hl.writer.reclose h.accepting halong hs'
  rcases hclose : w.close st.writer.1 false (st.rejects.flush st.site).2 with ⟨last, closed, site⟩
  rw [hclose] at hspares hagain
  exact ⟨last, _, finish_of_close (Writer.noting_close hclose), rfl, hspares.bytes.trans hbytes,
    ⟨halong.trans hspares.toAlongside, hkept.of_spares hspares⟩, hagain⟩

/-- Closing the writer in error mode. -/
theorem Accounted.abandon (h : l.Accounted path name s xs st)
    (hclose : ∀ s', s.Alongside s' → s'.Spares name (w.close st.writer.1 true s').2.2) :
    ∃ last st', Loader.abandon w.noting st = (last.toOption, st') ∧
      st'.writer.2 = st.writer.2 ++ [.close true last] ∧
      s.Alongside st'.site ∧
      st'.site.directory.bytesAt name
        = s.directory.bytesAt name ++ (l.rules.rejectedBytes xs).flatten := by
  obtain ⟨-, hbeside, hbytes, -⟩ := h.kept.flush
  have halong := h.beside.trans hbeside
  have hspares := hclose _ halong
  rcases hclosed : w.close st.writer.1 true (st.rejects.flush st.site).2 with ⟨last, closed, site⟩
  rw [hclosed] at hspares
  exact ⟨last, _, abandon_of_close (Writer.noting_close hclosed), rfl,
    halong.trans hspares.toAlongside, hspares.bytes.trans hbytes⟩

/-- What a failed run says is said beside the file. -/
theorem spares_report (hobservers : l.observers.Spares name s) {s' : Site} (hs' : s.Alongside s')
    (e : LoadError) (summary : Summary) : s'.Spares name (l.report e summary s') := by
  unfold Loader.report
  obtain ⟨logged, hlogged, hspares⟩ : ∃ logged,
      (if e.isInterrupt then
        s'.warn ("load of " ++ l.inputName ++ " interrupted: " ++ e.message ++ "\n" ++ summary.text)
      else s'.fail ("load of " ++ l.inputName ++ " failed: " ++ e.message ++ "\n" ++ summary.text))
        = logged ∧ s'.Spares name logged := by
    refine ⟨_, rfl, ?_⟩
    split
    · exact s'.spares_warn name _
    · exact s'.spares_fail name _
  rw [hlogged]
  have hfailed := hspares.trans (hobservers (.failed l.context (Severity.of e) e summary) logged
    (hs'.trans hspares.toAlongside))
  dsimp only
  split
  · exact hfailed.trans (hobservers (.alerted l.context (Severity.of e) e summary) _
      (hs'.trans hfailed.toAlongside))
  · exact hfailed

end Closing

/-! ## Runs -/

/-- The counts of a run without those of its writer. -/
def counted (skipped rejected : Nat) : Summary :=
  { skipped := skipped, parseRejected := rejected }

/-- How a run ends that has given its writer some rows and has not been
broken off: what it comes to, and what the writer was asked. -/
inductive Completed (summary : Summary) (given : List Entry) :
    Except LoadFailure Summary → List Call → Prop
  | closed (counts : Counts) :
    Completed summary given (.ok (summary.withCounts counts))
      (Call.taken given ++ [.close false (.ok counts)])
  /-- The writer could not be closed. -/
  | unclosed (e : WriterError) (last : Except WriterError Counts) :
    Completed summary given (.error ⟨summary.withCounts (reached last), .writer e⟩)
      (Call.taken given ++ [.close false (.error e), .close true last])

section Run

variable {l} {w : Writer σ} {source : Source} {skipped : Nat} {writer : σ × List Call} {s : Site}
  {st st' : State (σ × List Call)}

/-- A run whose writer is closed. -/
theorem run_of_finish {counts : Counts}
    (hload : l.load w.noting source ⟨writer, l.rejects, l.observers (.started l.context) s⟩
      = (skipped, .ok (), st))
    (hfinish : finish w.noting st = (.ok counts, st')) :
    l.run w.noting source writer s
      = (.ok ((counted skipped st.rejects.count).withCounts counts), st'.writer,
        l.observers (.succeeded l.context ((counted skipped st.rejects.count).withCounts counts))
          st'.site) := by
  unfold run
  dsimp only
  rw [hload]
  dsimp only
  rw [hfinish]
  rfl

/-- A run that has failed before or there. -/
theorem run_of_abandon {loaded : Except LoadError Unit} {e : LoadError}
    {last : Except WriterError Counts} {st'' : State (σ × List Call)}
    (hload : l.load w.noting source ⟨writer, l.rejects, l.observers (.started l.context) s⟩
      = (skipped, loaded, st))
    (hfailed : loaded = .error e ∧ st' = st ∨
      loaded = .ok () ∧ finish w.noting st = (.error e, st'))
    (habandon : abandon w.noting st' = (last.toOption, st'')) :
    l.run w.noting source writer s
      = (.error ⟨(counted skipped st.rejects.count).withCounts (reached last), e⟩, st''.writer,
        l.report e ((counted skipped st.rejects.count).withCounts (reached last)) st''.site) := by
  unfold run
  dsimp only
  rw [hload]
  rcases hfailed with ⟨rfl, rfl⟩ | ⟨rfl, hfinish⟩
  · dsimp only
    rw [habandon]
    cases last <;> rfl
  · dsimp only
    rw [hfinish]
    dsimp only
    rw [habandon]
    cases last <;> rfl

end Run

section Limit

variable {l} {w : Writer σ} {accepting : σ → Prop} {path name : String} {s : Site}
  {source : Source} {reader reader' : RecordReader} {skipped : Nat} {writer : σ}

/-- The reader of a run ends before its fuel does. -/
theorem exists_delivers_bound (hstart : RecordReader.start source l.options l.schema = .ok reader)
    (hskip : reader.skip l.options.skip = (.ok skipped, reader')) :
    ∃ xs stop, reader'.Delivers xs stop ∧ xs.length < bound source := by
  obtain ⟨hcounted, -⟩ := RecordReader.start_ok hstart
  obtain ⟨hcounted', hless⟩ := RecordReader.skip_ok hcounted hskip
  obtain ⟨xs, stop, hdelivers, hlength⟩ := RecordReader.exists_delivers hcounted'
  exact ⟨xs, stop, hdelivers,
    Nat.lt_of_le_of_lt (Nat.le_trans hlength hless) (left_lt_bound hstart)⟩

theorem load_eq (hl : l.Undisturbed w accepting path name s)
    (hstart : RecordReader.start source l.options l.schema = .ok reader)
    (hskip : reader.skip l.options.skip = (.ok skipped, reader')) {st : State (σ × List Call)}
    (hst : s.Alongside st.site) :
    l.load w.noting source st = (skipped, records w.noting l.rules (bound source) l.options.limit
      reader' (Row.blank l.schema.width) st) :=
  load_of_skip_ok hstart ((congrArg Token.pending hst.token).trans hl.calm) hskip

variable {xs : List Record} {stop : Except LoadError Unit}

/-- A run of which no more records are rejected than it puts up with. -/
theorem run_within (hl : l.Undisturbed w accepting path name s) (hwriter : accepting writer)
    (hstart : RecordReader.start source l.options l.schema = .ok reader)
    (hskip : reader.skip l.options.skip = (.ok skipped, reader'))
    (hdelivers : reader'.Delivers xs stop) (hfuel : xs.length < bound source)
    (hends : stop = .ok () ∨ ∃ most, l.options.limit = some most ∧ most ≤ xs.length)
    (hwithin : l.Within (l.attempted xs)) :
    ∃ outcome last calls site,
      l.run w.noting source (writer, []) s = (outcome, (last, calls), site) ∧
      Completed (counted skipped (l.rules.rejectedBytes (l.attempted xs)).length)
        (l.rules.acceptedRows (l.attempted xs)) outcome calls ∧
      site.directory.bytesAt name
        = s.directory.bytesAt name ++ (l.rules.rejectedBytes (l.attempted xs)).flatten := by
  have hbefore := hl.start hwriter
  obtain ⟨st, hrecords, hst⟩ :=
    hbefore.whole hl hdelivers (Row.shaped_blank _) hwithin hends hfuel
  have hload := load_eq hl hstart hskip hbefore.beside
  rw [hrecords] at hload
  obtain ⟨last, st', hfinish, hcalls, hbytes, haccounted, hagain⟩ := hst.finish hl
  rw [hst.calls] at hcalls
  rw [← hst.kept.count_eq]
  cases last with
  | ok counts =>
    have hspares := hl.observers (.succeeded l.context
      ((counted skipped st.rejects.count).withCounts counts)) st'.site haccounted.beside
    refine ⟨_, _, _, _, run_of_finish hload hfinish, ?_, hspares.bytes.trans hbytes⟩
    rw [hcalls]
    exact .closed counts
  | error e =>
    obtain ⟨last, st'', habandon, hcalls', hbeside, hbytes'⟩ := haccounted.abandon hagain
    have hspares := spares_report hl.observers hbeside (.writer e)
      ((counted skipped st.rejects.count).withCounts (reached last))
    refine ⟨_, _, _, _, run_of_abandon hload (.inr ⟨rfl, hfinish⟩) habandon, ?_,
      hspares.bytes.trans hbytes'⟩
    rw [hcalls', hcalls, List.append_assoc]
    exact .unclosed e last

/-- A run of which more are rejected. -/
theorem run_beyond (hl : l.Undisturbed w accepting path name s) (hwriter : accepting writer)
    (hstart : RecordReader.start source l.options l.schema = .ok reader)
    (hskip : reader.skip l.options.skip = (.ok skipped, reader'))
    (hdelivers : reader'.Delivers xs stop) (hfuel : xs.length < bound source) {most : Nat}
    (hlimit : l.options.parseErrors = .limited most)
    (hmore : most < (l.rules.rejectedBytes (l.attempted xs)).length) :
    ∃ before x after last writer' site, l.attempted xs = before ++ x :: after ∧
      (l.rules.rejectedBytes before).length = most ∧ l.rules.accepts x = false ∧
      l.run w.noting source (writer, []) s
        = (.error ⟨(counted skipped (most + 1)).withCounts (reached last),
            .parseErrorLimit (most + 1) most⟩,
          (writer', Call.taken (l.rules.acceptedRows before) ++ [.close true last]), site) ∧
      site.directory.bytesAt name
        = s.directory.bytesAt name ++ (l.rules.rejectedBytes before ++ [x.raw]).flatten := by
  have hbefore := hl.start hwriter
  obtain ⟨before, x, after, st, hattempted, hcount, hx, hrecords, hst⟩ :=
    hbefore.excess hl hdelivers (Row.shaped_blank _) hlimit hmore hfuel
  have hload := load_eq hl hstart hskip hbefore.beside
  rw [hrecords] at hload
  have hclose := fun s' (hs' : s.Alongside s') => hl.writer.close hst.accepting hs' true
  obtain ⟨last, st', habandon, hcalls, hbeside, hbytes⟩ := hst.abandon hclose
  have hrejected : l.rules.rejectedBytes (before ++ [x])
      = l.rules.rejectedBytes before ++ [x.raw] := by
    rw [Rules.rejectedBytes_concat, if_neg (Bool.eq_false_iff.mp hx)]
  have hgiven : l.rules.acceptedRows (before ++ [x]) = l.rules.acceptedRows before := by
    rw [Rules.acceptedRows_concat, if_neg (Bool.eq_false_iff.mp hx), List.append_nil]
  have hrejects : st.rejects.count = most + 1 := by
    rw [hst.kept.count_eq, hrejected, List.length_append, hcount]
    rfl
  have hrun := run_of_abandon hload (.inl ⟨rfl, rfl⟩) habandon
  have hspares := spares_report hl.observers hbeside (.parseErrorLimit (most + 1) most)
    ((counted skipped st.rejects.count).withCounts (reached last))
  rw [hst.calls, hgiven] at hcalls
  rw [hrejected] at hbytes
  rw [hrejects] at hrun hspares
  refine ⟨before, x, after, last, st'.writer.1, _, hattempted, hcount, hx, ?_,
    hspares.bytes.trans hbytes⟩
  rw [← hcalls]
  exact hrun

/-- What comes of a run over some records, as far as the limit of rejected
records decides it: what it gives back, what its writer was asked and what
its site is then. -/
structure ToLimit (l : Loader) (name : String) (before : Bytes) (skipped : Nat) (xs : List Record)
    (stop : Except LoadError Unit)
    (out : Except LoadFailure Summary × (σ × List Call) × Site) : Prop where
  /-- If no more are rejected than the run puts up with, the writer is
  given all accepted rows, and the run succeeds if it can then be closed. -/
  within : (stop = .ok () ∨ ∃ most, l.options.limit = some most ∧ most ≤ xs.length) →
    l.Within (l.attempted xs) →
    Completed (counted skipped (l.rules.rejectedBytes (l.attempted xs)).length)
      (l.rules.acceptedRows (l.attempted xs)) out.1 out.2.1.2 ∧
    out.2.2.directory.bytesAt name
      = before ++ (l.rules.rejectedBytes (l.attempted xs)).flatten
  /-- If more are, the run fails at the first that is too many, and the
  writer is closed in error mode after the rows accepted before. -/
  beyond : ∀ most, l.options.parseErrors = .limited most →
    most < (l.rules.rejectedBytes (l.attempted xs)).length →
    ∃ earlier x later last, l.attempted xs = earlier ++ x :: later ∧
      (l.rules.rejectedBytes earlier).length = most ∧ l.rules.accepts x = false ∧
      out.1 = .error ⟨(counted skipped (most + 1)).withCounts (reached last),
        .parseErrorLimit (most + 1) most⟩ ∧
      out.2.1.2 = Call.taken (l.rules.acceptedRows earlier) ++ [.close true last] ∧
      out.2.2.directory.bytesAt name
        = before ++ (l.rules.rejectedBytes earlier ++ [x.raw]).flatten

/-- **A run that only rejected records can trouble keeps to their limit.**
The records are those that its reader has after the ones passed over. That
the calls of the writer are noted makes no difference to the run
(`run_noting`). -/
theorem run_to_limit (hl : l.Undisturbed w accepting path name s) (hwriter : accepting writer)
    (hstart : RecordReader.start source l.options l.schema = .ok reader)
    (hskip : reader.skip l.options.skip = (.ok skipped, reader')) :
    ∃ xs stop, reader'.Delivers xs stop ∧
      l.ToLimit name (s.directory.bytesAt name) skipped xs stop
        (l.run w.noting source (writer, []) s) := by
  obtain ⟨xs, stop, hdelivers, hfuel⟩ := exists_delivers_bound hstart hskip
  refine ⟨xs, stop, hdelivers, fun hends hwithin => ?_, fun most hlimit hmore => ?_⟩
  · obtain ⟨outcome, last, calls, site, hrun, hcompleted, hbytes⟩ :=
      run_within hl hwriter hstart hskip hdelivers hfuel hends hwithin
    rw [hrun]
    exact ⟨hcompleted, hbytes⟩
  · obtain ⟨earlier, x, later, last, writer', site, hattempted, hcount, hx, hrun, hbytes⟩ :=
      run_beyond hl hwriter hstart hskip hdelivers hfuel hlimit hmore
    rw [hrun]
    exact ⟨earlier, x, later, last, hattempted, hcount, hx, rfl, rfl, hbytes⟩

end Limit

/-! ## A table of one column -/

/-- A load of whole numbers that puts up with one record that is none. -/
def integers : Loader where
  options := { parseErrors := .limited 1, parseBadFile := some "parse.bad" }
  schema := ⟨[{ name := "a", type := .int32 }]⟩

/-- A writer over an empty table, whose calls of one kind may fail. -/
def tableWriter (failures : StorageCall → Nat → Option StorageError) : LocalWriter where
  storage := { medium := .table {}, failures := failures }
  duplicates := { policy := .keepNew, limit := .limited 0 }

theorem keyless_tableWriter {failures : StorageCall → Nat → Option StorageError}
    (h : ∀ n, failures .insert n = none) : (tableWriter failures).Keyless :=
  ⟨⟨⟨{}, rfl, rfl⟩, h⟩, rfl, rfl⟩

theorem undisturbed_integers : integers.Undisturbed LocalWriter.writer LocalWriter.Keyless
    "parse.bad" "parse.bad" {} where
  catalog := Catalog.mild_plain
  badFile := rfl
  opens := by decide +kernel
  observers := Observer.spares_silent
  writer := LocalWriter.steady _ _
  calm := rfl

/-- Two records too many for a limit of one. -/
theorem run_to_limit_integers :
    let source := Source.bytes { rest := Bytes.ascii "1\nx\n2\ny\n3\n", cuts := [] }
    integers.Undisturbed LocalWriter.writer LocalWriter.Keyless "parse.bad" "parse.bad" {} ∧
      (tableWriter fun _ _ => none).Keyless ∧
      ∃ reader reader', RecordReader.start source integers.options integers.schema = .ok reader ∧
        reader.skip integers.options.skip = (.ok 0, reader') ∧
        ∃ xs stop, reader'.Delivers xs stop ∧
          integers.ToLimit "parse.bad" [] 0 xs stop
            (integers.run LocalWriter.writer.noting source
              (tableWriter fun _ _ => none, []) {}) := by
  intro source
  have hkeyless : (tableWriter fun _ _ => none).Keyless := keyless_tableWriter fun _ => rfl
  exact ⟨undisturbed_integers, hkeyless, _, _, rfl, rfl,
    run_to_limit undisturbed_integers hkeyless rfl rfl⟩

example : (integers.run LocalWriter.writer
    (.bytes { rest := Bytes.ascii "1\nx\n2\ny\n3\n", cuts := [] })
    (tableWriter fun _ _ => none) {}).1
      = .error ⟨{ loaded := 2, parseRejected := 2 }, .parseErrorLimit 2 1⟩ := by decide +kernel

/-- Two runs that reject no more than they put up with. The first fails
all the same, because its writer takes both rows and then cannot be
closed. In the second the log file is the file of rejected records, so
that this gains more than the one that is rejected. -/
theorem run_within_disturbed :
    let cannotFinish : StorageCall → Nat → Option StorageError := fun call _ =>
      if call = .finish then some (.io (.other "disk full")) else none
    let logging := { integers with
      options := { integers.options with logFile := some "parse.bad" } }
    let record (number : Nat) (text : String) : Record :=
      ⟨number, Bytes.ascii (text ++ "\n"), [⟨Bytes.ascii text, false⟩], none⟩
    let numbers := Source.bytes { rest := Bytes.ascii "1\n2\n", cuts := [] }
    let mixed := Source.bytes { rest := Bytes.ascii "1\nx\n", cuts := [] }
    integers.Undisturbed LocalWriter.writer LocalWriter.Keyless "parse.bad" "parse.bad" {} ∧
      (tableWriter cannotFinish).Keyless ∧ (tableWriter fun _ _ => none).Keyless ∧
      (∃ reader, RecordReader.start numbers integers.options integers.schema = .ok reader ∧
        reader.Delivers [record 1 "1", record 2 "2"] (.ok ()) ∧
        integers.rules.rejectedBytes [record 1 "1", record 2 "2"] = [] ∧
        (integers.run LocalWriter.writer numbers (tableWriter cannotFinish) {}).1
          = .error ⟨{ loaded := 2 }, .writer (.io (.other "disk full"))⟩) ∧
      ∃ reader, RecordReader.start mixed logging.options logging.schema = .ok reader ∧
        reader.Delivers [record 1 "1", record 2 "x"] (.ok ()) ∧
        logging.rules.rejectedBytes [record 1 "1", record 2 "x"] = [Bytes.ascii "x\n"] ∧
        (logging.run LocalWriter.writer mixed (tableWriter fun _ _ => none) {}).1
          = .ok { loaded := 1, parseRejected := 1 } ∧
        (logging.run LocalWriter.writer mixed (tableWriter fun _ _ => none)
          {}).2.2.directory.bytesAt "parse.bad" ≠ Bytes.ascii "x\n" := by
  intro cannotFinish logging record numbers mixed
  refine ⟨undisturbed_integers, keyless_tableWriter fun _ => rfl, keyless_tableWriter fun _ => rfl,
    ⟨_, rfl, ⟨_, _, .cons (by with_unfolding_all rfl) (.cons (by with_unfolding_all rfl) (.nil _)),
        by with_unfolding_all rfl⟩, by decide +kernel,
      by decide +kernel⟩,
    ⟨_, rfl, ⟨_, _, .cons (by with_unfolding_all rfl) (.cons (by with_unfolding_all rfl) (.nil _)),
        by with_unfolding_all rfl⟩, by decide +kernel,
      by decide +kernel, by decide +kernel⟩⟩

end Loader
end Intake
