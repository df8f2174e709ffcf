import Intake.Proofs.Record.Again
import Intake.Proofs.Run.Limit
import Intake.Proofs.Run.Trace
import Intake.Proofs.Writer.Files
/-!
# Replaying rejected records

The file that a run keeps its rejected records in can be given to a reader
of the same options, and then yields them again: the same bytes, fields
and NULLs, counted afresh. That is so exactly if none of them has its line
feed behind an escape (`Loader.replay_iff`), and one that has is an input
that ends behind an escape, to which the run itself has added the line
feed. Read again, the escape makes that line feed content, and another is
added (`Loader.replay_dangling`).

Nothing is assumed of the run but that the file is its own
(`Loader.Filing`): the input may break off, the run may be asked to stop,
the catalog may fail, the writer may refuse rows, records may be passed
over and attempts be limited. Whatever happens, the run has dealt with
some records one after another (`Trace`), and those that it has rejected
are in the file (`Filed`). By induction on the trace that is a matter of
one record (`Filed.dealt`).
-/

namespace Intake

/-! ## Rejected records -/

namespace Rules

variable (r : Rules)

/-- Whether a record is rejected. One over which the catalog fails is
neither accepted nor rejected. -/
def rejects (x : Record) : Bool :=
  match (r.judge x).outcome with
  | .error (.rejected _) => true
  | _ => false

/-- The records that are rejected. -/
def rejected (xs : List Record) : List Record := xs.filter r.rejects

theorem rejected_concat (xs : List Record) (x : Record) :
    r.rejected (xs ++ [x]) = r.rejected xs ++ if r.rejects x then [x] else [] := by
  unfold rejected
  rw [List.filter_append]
  cases h : r.rejects x <;> simp [h]

end Rules

namespace Loader

variable {σ : Type}

/-- The counts that a run has come to, however it ended. -/
def countsOf : Except LoadFailure Summary → Summary
  | .ok summary => summary
  | .error failure => failure.summary

/-- A run whose file of rejected records can be opened and is its own:
neither the writer nor the observers touch it, whoever asks the run to
stop meanwhile. -/
structure Filing (l : Loader) (w : Writer σ) (safe : σ → Prop) (path name : String) (s : Site) :
    Prop where
  badFile : l.options.parseBadFile = some path
  opens : (s.directory.openToAppend path).1 = .ok name
  observers : ∀ token, l.observers.Spares name { s with token := token }
  writer : w.Apart (· = name) s.directory safe

/-- A run that has dealt with some records: the rejected ones are in its
file or wait to be written to it. -/
structure Filed (l : Loader) (safe : σ → Prop) (path name : String) (s : Site) (xs : List Record)
    (st : State (σ × List Call)) : Prop where
  beside : s.directory.Alongside st.site.directory
  kept : st.rejects.Keeps l.options.parseErrors path name (s.directory.bytesAt name) st.site
    ((l.rules.rejected xs).map Record.raw)
  observer : st.rejects.observer = l.observers
  safe : safe st.writer.1

/-- What a run leaves that has dealt with some records: the rejected ones
are counted and in the file, and the writer was given some rows. -/
structure Leaves (l : Loader) (name : String) (s : Site) (xs : List Record) (given : List Entry)
    (out : Except LoadFailure Summary × (σ × List Call) × Site) : Prop where
  counted : (countsOf out.1).parseRejected = (l.rules.rejected xs).length
  given : Call.given out.2.1.2 = given
  bytes : out.2.2.directory.bytesAt name
    = s.directory.bytesAt name ++ ((l.rules.rejected xs).map Record.raw).flatten

section Filed

variable {l : Loader} {w : Writer σ} {safe : σ → Prop} {path name : String} {s : Site}
  {xs ys : List Record} {x : Record} {st st' : State (σ × List Call)}

theorem Filing.spares (hl : l.Filing w safe path name s) {s' : Site}
    (hs : s.directory.Alongside s'.directory) : l.observers.Spares name s' :=
  (hl.observers s'.token).alongside ⟨hs, rfl⟩

/-- Nothing has happened yet. -/
theorem Filing.start (hl : l.Filing w safe path name s) {writer : σ} (hwriter : safe writer) :
    l.Filed safe path name s [] ⟨(writer, []), l.rejects, l.observers (.started l.context) s⟩ := by
  have hspares := hl.spares (.refl _) (.started l.context) s (.refl s)
  refine ⟨hspares.directory, ⟨rfl, rfl, ?_⟩, rfl, hwriter⟩
  exact ⟨hl.badFile, hspares.directory.openToAppend_ok hl.opens, .inl ⟨rfl, rfl⟩,
    congrArg (· ++ []) hspares.bytes⟩

/-- What is kept is kept where the directory is the same but for other
files. -/
theorem Filed.kept_of_agrees (h : l.Filed safe path name s xs st) (s' : Site)
    (hs : st.site.directory.Agrees (· = name) s'.directory) :
    st.rejects.Keeps l.options.parseErrors path name (s.directory.bytesAt name) s'
      ((l.rules.rejected xs).map Record.raw) :=
  ⟨h.kept.limit_eq, h.kept.count_eq, h.kept.file.of_same hs.toAlongside (hs.bytes name rfl)⟩

/-- **One record more**, whatever becomes of it. -/
theorem Filed.dealt (h : l.Filed safe path name s xs st) (hl : l.Filing w safe path name s)
    {outcome : Except LoadError Unit} (hdealt : Dealt w.noting l.rules x st outcome st') :
    l.Filed safe path name s (xs ++ [x]) st' := by
  cases hdealt with
  | accepted judged insert =>
    have hrejects : l.rules.rejects x = false := by simp only [Rules.rejects, judged]
    obtain ⟨answer, writer, site, hinsert, hsafe, hagrees⟩ := hl.writer.insert
      (s := st.site.request (l.rules.judge x).requests) h.safe h.beside (l.rules.judge x).row x.raw
    cases insert.symm.trans (Writer.noting_insert hinsert)
    refine ⟨h.beside.trans hagrees.toAlongside, ?_, h.observer, hsafe⟩
    rw [Rules.rejected_concat, hrejects, if_neg Bool.false_ne_true, List.append_nil]
    exact h.kept_of_agrees _ hagrees
  | rejected judged reject =>
    have hrejects : l.rules.rejects x = true := by simp only [Rules.rejects, judged]
    obtain ⟨rejects, site, hreject, hkept, hbeside, hobserver⟩ :=
      (h.kept_of_agrees (st.site.request (l.rules.judge x).requests) (.refl _ _)).reject
        (h.observer ▸ hl.spares h.beside) x.number x.raw _
    cases reject.symm.trans hreject
    refine ⟨h.beside.trans hbeside.directory, ?_, hobserver.trans h.observer, h.safe⟩
    rw [Rules.rejected_concat, hrejects, if_pos rfl, List.map_append]
    exact hkept
  | fatal judged =>
    have hrejects : l.rules.rejects x = false := by simp only [Rules.rejects, judged]
    refine ⟨h.beside, ?_, h.observer, h.safe⟩
    rw [Rules.rejected_concat, hrejects, if_neg Bool.false_ne_true, List.append_nil]
    exact h.kept_of_agrees _ (.refl _ _)

/-- **All records of a trace**, however it ends. -/
theorem Filed.trace {left : Option Nat} {reader : RecordReader} {outcome : Except LoadError Unit}
    (h : l.Filed safe path name s xs st) (hl : l.Filing w safe path name s)
    (htrace : Trace w.noting l.rules left reader st ys outcome st') :
    l.Filed safe path name s (xs ++ ys) st' := by
  induction htrace generalizing xs with
  | spent => exact (List.append_nil xs).symm ▸ h
  | interrupted => exact (List.append_nil xs).symm ▸ h
  | ended => exact (List.append_nil xs).symm ▸ h
  | unread => exact (List.append_nil xs).symm ▸ h
  | stopped _ _ _ dealt => exact h.dealt hl dealt
  | turn _ _ _ dealt _ ih =>
    rw [List.append_cons]
    exact ih (h.dealt hl dealt)

/-- Closing the writer after the file has been flushed: all that was
rejected is in the file. -/
theorem Filed.close (h : l.Filed safe path name s xs st) (hl : l.Filing w safe path name s)
    (onError : Bool) :
    ∃ last writer site, w.noting.close st.writer onError (st.rejects.flush st.site).2
        = (last, writer, site) ∧
      l.Filed safe path name s xs ⟨writer, (st.rejects.flush st.site).1, site⟩ ∧
      Call.given writer.2 = Call.given st.writer.2 ∧
      site.directory.bytesAt name
        = s.directory.bytesAt name ++ ((l.rules.rejected xs).map Record.raw).flatten := by
  obtain ⟨hkept, hbeside, hbytes, hobserver⟩ := h.kept.flush
  have halong := h.beside.trans hbeside.directory
  obtain ⟨last, writer, site, hclose, hsafe, hagrees⟩ := hl.writer.close h.safe halong onError
  refine ⟨last, _, site, Writer.noting_close hclose, ⟨halong.trans hagrees.toAlongside, ?_,
    hobserver.trans h.observer, hsafe⟩, (Call.given_append ..).trans (List.append_nil _),
    (hagrees.bytes name rfl).trans hbytes⟩
  exact ⟨hkept.limit_eq, hkept.count_eq,
    hkept.file.of_same hagrees.toAlongside (hagrees.bytes name rfl)⟩

/-- A run that fails after it has dealt with some records closes its writer
in error mode, whatever has been closed before. -/
theorem Filed.run_failed (h : l.Filed safe path name s xs st) (hl : l.Filing w safe path name s)
    {source : Source} {writer : σ} {skipped : Nat} {outcome : Except LoadError Unit}
    {loaded : State (σ × List Call)} {e : LoadError}
    (hcount : loaded.rejects.count = st.rejects.count)
    (hload : l.load w.noting source
      ⟨(writer, []), l.rejects, l.observers (.started l.context) s⟩ = (skipped, outcome, loaded))
    (hfailed : outcome = .error e ∧ st = loaded ∨
      outcome = .ok () ∧ Loader.finish w.noting loaded = (.error e, st)) :
    l.Leaves name s xs (Call.given st.writer.2) (l.run w.noting source (writer, []) s) := by
  obtain ⟨last, ⟨final, calls⟩, site, hclose, hfiled, hgiven, hbytes⟩ := h.close hl true
  rw [run_of_abandon hload hfailed (abandon_of_close hclose)]
  refine ⟨?_, hgiven, ?_⟩
  · show loaded.rejects.count = _
    rw [hcount, h.kept.count_eq, List.length_map]
  · exact (spares_report (hl.spares hfiled.beside) (.refl site) e _).bytes.trans hbytes

/-- A run that has dealt with some records when its loop has ended: the
file holds those that it has rejected, whether it succeeds or not. -/
theorem Filed.run (h : l.Filed safe path name s xs st) (hl : l.Filing w safe path name s)
    {source : Source} {writer : σ} {skipped : Nat} {outcome : Except LoadError Unit}
    (hload : l.load w.noting source
      ⟨(writer, []), l.rejects, l.observers (.started l.context) s⟩ = (skipped, outcome, st)) :
    l.Leaves name s xs (Call.given st.writer.2) (l.run w.noting source (writer, []) s) := by
  cases outcome with
  | error e => exact h.run_failed hl rfl hload (.inl ⟨rfl, rfl⟩)
  | ok _ =>
    obtain ⟨last, ⟨final, calls⟩, site, hclose, hfiled, hgiven, hbytes⟩ := h.close hl false
    have hfinish := finish_of_close hclose
    cases last with
    | error e =>
      rw [← hgiven]
      exact hfiled.run_failed hl (h.kept.count_eq.trans hfiled.kept.count_eq.symm) hload
        (.inr ⟨rfl, hfinish⟩)
    | ok counts =>
      have hspares := hl.spares hfiled.beside (.succeeded l.context
        ((counted skipped st.rejects.count).withCounts counts)) site (.refl site)
      rw [run_of_finish hload hfinish]
      refine ⟨?_, hgiven, hspares.bytes.trans hbytes⟩
      show st.rejects.count = _
      rw [h.kept.count_eq, List.length_map]

end Filed

/-! ## Reading the file -/

section Replay

variable {l : Loader} {w : Writer σ} {safe : σ → Prop} {path name : String} {s : Site}
  {source : Source} {reader : RecordReader} {writer : σ}

/-- **What a run has rejected is in its file**, of some records that it
has dealt with; the writer was given those that are accepted. -/
theorem run_filed (hl : l.Filing w safe path name s) (hwriter : safe writer)
    (hstart : RecordReader.start source l.options l.schema = .ok reader) :
    ∃ xs, l.Attempts reader xs ∧ l.Leaves name s xs (l.rules.acceptedRows xs)
      (l.run w.noting source (writer, []) s) := by
  have hbefore := hl.start hwriter
  rcases load_cases (w := w.noting) hstart
      ⟨(writer, []), l.rejects, l.observers (.started l.context) s⟩ with
    ⟨e, hload⟩ | ⟨skipped, reader', xs, outcome, st, -, hskip, htrace, hload⟩
  · exact ⟨[], .inl rfl, hbefore.run hl hload⟩
  · obtain ⟨mid, hyields⟩ := htrace.yields
    have hleaves := (hbefore.trace hl htrace).run hl hload
    rw [htrace.given] at hleaves
    exact ⟨xs, .inr ⟨skipped, reader', mid, hskip, hyields⟩, hleaves⟩

/-- What a run attempts is made in the manner of its reader. -/
theorem Attempts.makes {xs : List Record} (h : l.Attempts reader xs) (hreader : reader.InOrder) :
    ∀ x ∈ xs, reader.manner.Makes x := by
  rcases h with rfl | ⟨skipped, reader', mid, hskip, hyields⟩
  · nofun
  · obtain ⟨hinOrder, hmanner⟩ := RecordReader.skip_manner hreader hskip
    exact hmanner ▸ hyields.makes hinOrder

/-- What a run over some records makes of its file of rejected records:
the file holds those that are rejected, and gives them to any reader of
the same options exactly if none of them has its line feed behind an
escape. -/
structure Replayable (l : Loader) (name : String) (xs : List Record)
    (out : Except LoadFailure Summary × (σ × List Call) × Site) : Prop where
  counted : (countsOf out.1).parseRejected = (l.rules.rejected xs).length
  given : Call.given out.2.1.2 = l.rules.acceptedRows xs
  again : ∀ cuts, ∃ reader,
    RecordReader.start (.bytes { rest := out.2.2.directory.bytesAt name, cuts := cuts })
      l.options l.schema = .ok reader ∧
    (reader.Delivers (Record.renumber 0 (l.rules.rejected xs)) (.ok ())
      ↔ ∀ x ∈ l.rules.rejected xs, ¬ l.options.dialect.Dangling x.raw)

/-- Where there are quotes, escapes are only known inside them. -/
theorem Replayable.of_quote {xs : List Record} {q : UInt8}
    {out : Except LoadFailure Summary × (σ × List Call) × Site} (h : l.Replayable name xs out)
    (hquote : l.options.dialect.quote = some q) (cuts : List Cut) :
    ∃ reader, RecordReader.start (.bytes { rest := out.2.2.directory.bytesAt name, cuts := cuts })
        l.options l.schema = .ok reader ∧
      reader.Delivers (Record.renumber 0 (l.rules.rejected xs)) (.ok ()) := by
  obtain ⟨reader, hstart, hagain⟩ := h.again cuts
  exact ⟨reader, hstart, hagain.mpr fun _ _ => Dialect.not_dangling_of_quote hquote⟩

/-- So the file of a CSV load whose options were made from pairs can always
be replayed. -/
theorem Replayable.of_ofPairs {xs : List Record} {pairs : List (String × String)}
    {out : Except LoadFailure Summary × (σ × List Call) × Site} (h : l.Replayable name xs out)
    (hpairs : Options.ofPairs pairs = .ok l.options) (hformat : l.options.format = .csv)
    (cuts : List Cut) :
    ∃ reader, RecordReader.start (.bytes { rest := out.2.2.directory.bytesAt name, cuts := cuts })
        l.options l.schema = .ok reader ∧
      reader.Delivers (Record.renumber 0 (l.rules.rejected xs)) (.ok ()) := by
  obtain ⟨q, hquote⟩ := Option.isSome_iff_exists.mp ((Options.check_ofPairs hpairs).2 hformat)
  exact h.of_quote hquote cuts

/-- **A file of rejected records can be replayed exactly if none of them
has its line feed behind an escape.** -/
theorem replay_iff {bytes : ByteSource} (hl : l.Filing w safe path name s) (hwriter : safe writer)
    (hempty : s.directory.bytesAt name = [])
    (hformat : l.options.format = .csv ∨ l.options.format = .text)
    (hstart : RecordReader.start (.bytes bytes) l.options l.schema = .ok reader) :
    ∃ xs, l.Attempts reader xs ∧
      l.Replayable name xs (l.run w.noting (.bytes bytes) (writer, []) s) := by
  obtain ⟨xs, hattempts, hleaves⟩ := run_filed hl hwriter hstart
  refine ⟨xs, hattempts, hleaves.counted, hleaves.given, fun cuts => ?_⟩
  have hbytes := hleaves.bytes
  rw [hempty, List.nil_append] at hbytes
  obtain ⟨forced, limit, hdelimited⟩ := RecordReader.start_delimited hformat hstart
  obtain ⟨hinOrder, again, hagain, hmanner, hbefore⟩ :=
    RecordReader.start_again hstart
      ((l.run w.noting (.bytes bytes) (writer, []) s).2.2.directory.bytesAt name) cuts
  rw [hbytes] at hbefore
  refine ⟨again, hagain,
    RecordReader.delivers_again_iff (hmanner.trans hdelimited) hbefore fun x hx => ?_⟩
  rw [hmanner]
  exact hattempts.makes hinOrder x (List.mem_filter.mp hx).1

theorem filing_integers : integers.Filing LocalWriter.writer
    (LocalWriter.Elsewhere (· = "parse.bad") {}) "parse.bad" "parse.bad" {} where
  badFile := rfl
  opens := by decide +kernel
  observers _ := Observer.spares_silent
  writer := LocalWriter.apart _ _

/-- A load that fails because two records are rejected, the first of two
lines, the second without a line feed. -/
theorem replay_iff_integers :
    let bytes : ByteSource := { rest := Bytes.ascii "1\n\"x\ny\"\n2\nz", cuts := [] }
    integers.Filing LocalWriter.writer (LocalWriter.Elsewhere (· = "parse.bad") {}) "parse.bad"
        "parse.bad" {} ∧
      (tableWriter fun _ _ => none).Elsewhere (· = "parse.bad") {} ∧
      ∃ reader, RecordReader.start (.bytes bytes) integers.options integers.schema = .ok reader ∧
        ∃ xs, integers.Attempts reader xs ∧ integers.Replayable "parse.bad" xs
          (integers.run LocalWriter.writer.noting (.bytes bytes)
            (tableWriter fun _ _ => none, []) {}) := by
  intro bytes
  have helsewhere : (tableWriter fun _ _ => none).Elsewhere (· = "parse.bad") {} :=
    ⟨nofun, ⟨nofun, nofun⟩⟩
  exact ⟨filing_integers, helsewhere, _, rfl,
    replay_iff filing_integers helsewhere rfl (.inl rfl) rfl⟩

/-- A load that rejects a record which its input ends in behind an escape,
and whose file yields another record. -/
theorem replay_dangling :
    let text := { integers with
      options := { integers.options with format := .text, dialect := .text } }
    let source (bs : Bytes) := Source.bytes { rest := bs, cuts := [] }
    let x : Record := ⟨1, Bytes.ascii "x\\\n", [⟨Bytes.ascii "x\\", false⟩], none⟩
    let y : Record := ⟨1, Bytes.ascii "x\\\n\n", [⟨Bytes.ascii "x\n", false⟩], none⟩
    text.options.dialect.check = .ok () ∧
      (∃ reader, RecordReader.start (source (Bytes.ascii "x\\")) text.options text.schema
          = .ok reader ∧ reader.Delivers [x] (.ok ())) ∧
      text.rules.rejected [x] = [x] ∧
      (text.run LocalWriter.writer (source (Bytes.ascii "x\\")) (tableWriter fun _ _ => none)
        {}).2.2.directory.bytesAt "parse.bad" = x.raw ∧
      ∃ reader, RecordReader.start (source x.raw) text.options text.schema = .ok reader ∧
        reader.Delivers [y] (.ok ()) ∧ y.fields ≠ x.fields ∧ y.raw ≠ x.raw := by
  intro text source x y
  refine ⟨by decide +kernel, ⟨_, rfl, _, _, .cons (by with_unfolding_all rfl) (.nil _),
      by with_unfolding_all rfl⟩, by decide +kernel, by decide +kernel,
    ⟨_, rfl, ⟨_, _, .cons (by with_unfolding_all rfl) (.nil _), by with_unfolding_all rfl⟩,
      by decide +kernel, by decide +kernel⟩⟩

end Replay

end Loader
end Intake
