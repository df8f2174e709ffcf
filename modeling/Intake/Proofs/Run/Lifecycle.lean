import Intake.Proofs.Record.Numbers
import Intake.Proofs.Run.Passage
/-!
# The life of a run

What a run comes to, whatever its source, its options and its writer do,
and also if its file of rejected records cannot be written. Its observer
hears that it starts, of each record that is rejected, and how it ends.
Its writer is given the rows of the accepted records until it refuses
one, and is then closed: once, or once more in error mode where closing
failed. And a run that fails does so with what went wrong first; what goes
wrong in cleaning up is not told (`Loader.run_lived`).

What can go wrong is a relation of its own (`Loader.Raises`), with a
constructor for each stage of a run and everything before that stage gone
well. A run fails with an error exactly if that is raised, and cleaning up
does not occur in it.
-/

namespace Intake

/-- The number of the record that an event is about. -/
def Event.record? : Event → Option Nat
  | .rejected _ _ record _ => some record
  | _ => none

namespace Loader

variable {σ : Type}

/-- The state in which a run sets out. -/
abbrev onset (l : Loader) (writer : σ) (s : Site) : State σ :=
  ⟨writer, l.rejects, l.observers (.started l.context) s⟩

/-! ## The end of a run -/

/-- A run that has passed over its first records and was not asked to stop. -/
structure Begun (l : Loader) (source : Source) (st : State σ) (skipped : Nat)
    (mid : RecordReader) : Prop where
  calm : st.site.token.pending = none
  passed : ∃ reader, RecordReader.start source l.options l.schema = .ok reader ∧
    reader.skip l.options.skip = (.ok skipped, mid)

/-- What goes wrong first in a run, everything before it having gone well. -/
inductive Raises (l : Loader) (disk : Disk) (w : Writer σ) (source : Source) (st : State σ) :
    LoadError → Prop where
  /-- The source does not fit the options or the table. -/
  | start {e : LoadError} (fails : RecordReader.start source l.options l.schema = .error e) :
    Raises l disk w source st e
  /-- The run is asked to stop before it reads. -/
  | asked {reader : RecordReader} {kind : Interrupt}
      (start : RecordReader.start source l.options l.schema = .ok reader)
      (pending : st.site.token.pending = some kind) :
    Raises l disk w source st (.interrupted kind)
  /-- The records cannot be passed over. -/
  | skipping {reader : RecordReader} {e : LoadError}
      (start : RecordReader.start source l.options l.schema = .ok reader)
      (calm : st.site.token.pending = none) (fails : (reader.skip l.options.skip).1 = .error e) :
    Raises l disk w source st e
  /-- The loop ends so: at a request to stop, over the input, over a record or
  over its row. -/
  | reading {skipped : Nat} {mid : RecordReader} {xs : List Record} {st' : State σ} {e : LoadError}
      (begun : l.Begun source st skipped mid)
      (passage : Passage disk w l.rules l.options.limit mid st xs (.error e) st') :
    Raises l disk w source st e
  /-- The rejected records cannot be written. -/
  | flushing {skipped : Nat} {mid : RecordReader} {xs : List Record} {st' : State σ}
      {e : LoadError} (begun : l.Begun source st skipped mid)
      (passage : Passage disk w l.rules l.options.limit mid st xs (.ok ()) st')
      (fails : (st'.rejects.flushOn disk st'.site).1 = .error e) : Raises l disk w source st e
  /-- The writer cannot be closed. -/
  | closing {skipped : Nat} {mid : RecordReader} {xs : List Record} {st' : State σ}
      {rejects : Rejects} {site : Site} {e : WriterError} (begun : l.Begun source st skipped mid)
      (passage : Passage disk w l.rules l.options.limit mid st xs (.ok ()) st')
      (flush : st'.rejects.flushOn disk st'.site = (.ok (), rejects, site))
      (fails : (w.close st'.writer false site).1 = .error e) :
    Raises l disk w source st (.writer e)

/-- The calls that a writer sees in a run, by how the run ends. The rows are
those of the accepted records, and the summary is without the writer's
counts. -/
inductive Attended (summary : Summary) (rows : List Entry) :
    Except LoadFailure Summary → List Call → Prop where
  /-- It has taken all rows and is closed. -/
  | closed (counts : Counts) :
    Attended summary rows (.ok (summary.withCounts counts))
      (Call.taken rows ++ [.close false (.ok counts)])
  /-- It cannot be closed, and is closed in error mode. -/
  | unclosed (e : WriterError) (last : Except WriterError Counts) :
    Attended summary rows (.error ⟨summary.withCounts (reached last), .writer e⟩)
      (Call.taken rows ++ [.close false (.error e), .close true last])
  /-- It refuses a row, and is closed in error mode. -/
  | refused {before : List Entry} {entry : Entry} (e : WriterError)
      (last : Except WriterError Counts) (rows_eq : rows = before ++ [entry]) :
    Attended summary rows (.error ⟨summary.withCounts (reached last), .writer e⟩)
      (Call.taken before ++ [.insert entry (.error e), .close true last])
  /-- It has taken all rows, and something else has gone wrong. -/
  | abandoned (e : LoadError) (last : Except WriterError Counts) :
    Attended summary rows (.error ⟨summary.withCounts (reached last), e⟩)
      (Call.taken rows ++ [.close true last])

section End

variable {l : Loader} {disk : Disk} {w : Writer σ} {source : Source} {st st' : State σ}

theorem finishOn_of_flush_error {e : LoadError} {rejects : Rejects} {site : Site}
    (h : st.rejects.flushOn disk st.site = (.error e, rejects, site)) :
    finishOn disk w st = (.error e, { st with rejects := rejects, site := site }) := by
  unfold finishOn
  rw [h]

theorem finishOn_of_close {rejects : Rejects} {site site' : Site} {writer : σ}
    {last : Except WriterError Counts}
    (hflush : st.rejects.flushOn disk st.site = (.ok (), rejects, site))
    (hclose : w.close st.writer false site = (last, writer, site')) :
    finishOn disk w st = (last.mapError .writer, ⟨writer, rejects, site'⟩) := by
  unfold finishOn
  rw [hflush]
  dsimp only
  rw [hclose]
  cases last <;> rfl

/-- A run that has failed, in its loop or after it. -/
theorem runOn_of_abandon {writer : σ} {s : Site} {skipped : Nat} {loaded : Except LoadError Unit}
    {e : LoadError} {last : Except WriterError Counts} {st'' : State σ}
    (hload : l.loadOn disk w source (l.onset writer s) = (skipped, loaded, st))
    (hfailed : loaded = .error e ∧ st' = st ∨
      loaded = .ok () ∧ finishOn disk w st = (.error e, st'))
    (habandon : abandonOn disk w st' = (last.toOption, st'')) :
    l.runOn disk w source writer s
      = (.error ⟨(counted skipped st.rejects.count).withCounts (reached last), e⟩, st''.writer,
        l.report e ((counted skipped st.rejects.count).withCounts (reached last)) st''.site) := by
  unfold runOn
  dsimp only
  rw [hload]
  rcases hfailed with ⟨rfl, rfl⟩ | ⟨rfl, hfinish⟩
  · dsimp only
    rw [habandon]
    cases last <;> rfl
  · dsimp only
    rw [hfinish]
    dsimp only
    rw [habandon]
    cases last <;> rfl

/-- A run whose writer is closed. -/
theorem runOn_of_finish {writer : σ} {s : Site} {skipped : Nat} {counts : Counts}
    (hload : l.loadOn disk w source (l.onset writer s) = (skipped, .ok (), st))
    (hfinish : finishOn disk w st = (.ok counts, st')) :
    l.runOn disk w source writer s
      = (.ok ((counted skipped st.rejects.count).withCounts counts), st'.writer,
        l.observers (.succeeded l.context ((counted skipped st.rejects.count).withCounts counts))
          st'.site) := by
  unfold runOn
  dsimp only
  rw [hload]
  dsimp only
  rw [hfinish]
  rfl

/-- Cleaning up closes the writer in error mode, and tells nothing. -/
theorem abandonOn_noting (disk : Disk) (w : Writer σ) (st : State (σ × List Call)) :
    ∃ last st', abandonOn disk w.noting st = (last.toOption, st') ∧
      st'.writer.2 = st.writer.2 ++ [.close true last] ∧
      (w.Quiet → st'.site.notes = st.site.notes) := by
  unfold abandonOn
  rcases hflush : st.rejects.flushOn disk st.site with ⟨outcome, rejects, site⟩
  obtain ⟨-, -, -, hnotes⟩ := Rejects.told_flushOn hflush
  rcases hclose : w.close st.writer.1 true site with ⟨last, writer, site'⟩
  have hquiet : w.Quiet → site'.notes = st.site.notes := by
    intro hw
    have hsame := hw.close st.writer.1 true site
    rw [hclose] at hsame
    exact hsame.trans hnotes
  dsimp only
  rw [Writer.noting_close hclose]
  cases last with
  | error e => exact ⟨.error e, _, rfl, rfl, hquiet⟩
  | ok counts => exact ⟨.ok counts, _, rfl, rfl, hquiet⟩

theorem loadOn_of_passage {skipped : Nat} {mid : RecordReader} {xs : List Record}
    {outcome : Except LoadError Unit} (hbegun : l.Begun source st skipped mid)
    (hpassage : Passage disk w l.rules l.options.limit mid st xs outcome st') :
    l.loadOn disk w source st = (skipped, outcome, st') := by
  obtain ⟨hcalm, reader, hstart, hskip⟩ := hbegun
  obtain ⟨hcounted, -⟩ := RecordReader.start_ok hstart
  obtain ⟨hcounted', hless⟩ := RecordReader.skip_ok hcounted hskip
  obtain ⟨xs', hpassage'⟩ := exists_passage disk w l.rules l.options.limit st hcounted'
    (Row.shaped_blank l.schema.width) (Nat.lt_of_le_of_lt hless (left_lt_bound hstart))
  obtain ⟨houtcome, hst⟩ := hpassage.unique hpassage'
  unfold loadOn
  rw [hstart]
  dsimp only
  rw [hcalm]
  dsimp only
  rw [hskip]
  exact congrArg (Prod.mk skipped) (Prod.ext houtcome.symm hst.symm)

theorem runOn_error_of_loadOn {writer : σ} {s : Site} {skipped : Nat} {e : LoadError}
    (h : l.loadOn disk w source (l.onset writer s) = (skipped, .error e, st)) :
    ∃ summary, (l.runOn disk w source writer s).1 = .error ⟨summary, e⟩ := by
  unfold runOn
  dsimp only
  rw [h]
  exact ⟨_, rfl⟩

theorem runOn_error_of_finishOn {writer : σ} {s : Site} {skipped : Nat} {e : LoadError}
    (hload : l.loadOn disk w source (l.onset writer s) = (skipped, .ok (), st))
    (hfinish : finishOn disk w st = (.error e, st')) :
    ∃ summary, (l.runOn disk w source writer s).1 = .error ⟨summary, e⟩ := by
  unfold runOn
  dsimp only
  rw [hload]
  dsimp only
  rw [hfinish]
  exact ⟨_, rfl⟩

/-- **Whatever is raised first is what the run fails with.** -/
theorem Raises.runOn_error {writer : σ} {s : Site} {e : LoadError}
    (h : l.Raises disk w source (l.onset writer s) e) :
    ∃ summary, (l.runOn disk w source writer s).1 = .error ⟨summary, e⟩ := by
  cases h with
  | start fails =>
    have hload : l.loadOn disk w source (l.onset writer s) = (0, .error e, l.onset writer s) := by
      simp only [loadOn, fails]
    exact runOn_error_of_loadOn hload
  | @asked _ kind start pending =>
    have hload : l.loadOn disk w source (l.onset writer s)
        = (0, .error (.interrupted kind), l.onset writer s) := by
      dsimp only at pending
      simp only [loadOn, start, pending]
    exact runOn_error_of_loadOn hload
  | @skipping reader _ start calm fails =>
    rcases hskip : reader.skip l.options.skip with ⟨outcome, mid⟩
    rw [hskip] at fails
    cases fails
    have hload : l.loadOn disk w source (l.onset writer s) = (0, .error e, l.onset writer s) := by
      dsimp only at calm
      simp only [loadOn, start, calm, hskip]
    exact runOn_error_of_loadOn hload
  | reading begun passage => exact runOn_error_of_loadOn (loadOn_of_passage begun passage)
  | @flushing _ _ _ st' _ begun passage fails =>
    rcases hflush : st'.rejects.flushOn disk st'.site with ⟨outcome, rejects, site⟩
    rw [hflush] at fails
    cases fails
    exact runOn_error_of_finishOn (loadOn_of_passage begun passage)
      (finishOn_of_flush_error hflush)
  | @closing _ _ _ st' rejects site _ begun passage flush fails =>
    rcases hclose : w.close st'.writer false site with ⟨last, x, site'⟩
    rw [hclose] at fails
    cases fails
    exact runOn_error_of_finishOn (loadOn_of_passage begun passage)
      (finishOn_of_close flush hclose)

end End

/-! ## The whole life -/

/-- Records that are the first that a run reads behind those that it passes
over. -/
def Reads (l : Loader) (source : Source) (st : State σ) (skipped : Nat) (xs : List Record) : Prop :=
  xs = [] ∨ ∃ mid last, l.Begun source st skipped mid ∧ mid.Yields xs last

/-- The life of a run that has passed over some records and dealt with some
behind them. -/
structure Lived (l : Loader) (disk : Disk) (w : Writer σ) (source : Source) (writer : σ)
    (s : Site) (skipped : Nat) (xs : List Record)
    (out : Except LoadFailure Summary × (σ × List Call) × Site) : Prop where
  reads : l.Reads source (l.onset (writer, ([] : List Call)) s) skipped xs
  /-- The rejected ones are counted, and told of in their order. -/
  counted : (countsOf out.1).parseRejected = (l.rules.rejections l.context xs).length
  increasing : ((l.rules.rejections l.context xs).filterMap Event.record?).Pairwise (· < ·)
  heard : w.Quiet → ∀ name, l.observer.Notes name → out.2.2.heard name
    = s.heard name ++ .started l.context :: l.rules.rejections l.context xs ++ l.ending out.1
  attended : Attended (Loader.counted skipped (l.rules.rejected xs).length)
    (l.rules.acceptedRows xs) out.1 out.2.1.2
  /-- The run fails with what is raised first. -/
  raised : ∀ e, (∃ summary, out.1 = .error ⟨summary, e⟩)
    ↔ l.Raises disk w.noting source (l.onset (writer, []) s) e

section Lived

variable {l : Loader} {disk : Disk} {w : Writer σ} {source : Source} {writer : σ} {s : Site}
  {skipped : Nat} {xs : List Record} {st st' : State (σ × List Call)}
  {loaded : Except LoadError Unit}

/-- The rejected ones of some records are told of by their numbers. -/
theorem record?_rejections (rules : Rules) (c : Context) (xs : List Record) :
    (rules.rejections c xs).filterMap Event.record? = (rules.rejected xs).map Record.number := by
  induction xs with
  | nil => rfl
  | cons x xs ih =>
    unfold Rules.rejections Rules.rejected Rules.rejection? Rules.rejects at ih ⊢
    rcases houtcome : (rules.judge x).outcome with (rejection | e) | _ <;>
      simp [houtcome, ih, Event.record?]

theorem Reads.increasing {τ : Type} {st : State τ} (h : l.Reads source st skipped xs)
    (c : Context) : ((l.rules.rejections c xs).filterMap Event.record?).Pairwise (· < ·) := by
  rcases h with rfl | ⟨mid, last, ⟨-, reader, hstart, hskip⟩, hyields⟩
  · exact .nil
  · have hnumbers := RecordReader.numbers_of_skip hstart hskip hyields
    have hsorted : (xs.map Record.number).Pairwise (· < ·) := hnumbers ▸ List.pairwise_lt_range'
    rw [record?_rejections]
    exact hsorted.sublist (List.filter_sublist.map _)

/-- A run that fails when it has dealt with some records, in its loop or after
it. -/
theorem Underway.lived (h : l.Underway w s xs st) {e : LoadError}
    (hreads : l.Reads source (l.onset (writer, ([] : List Call)) s) skipped xs)
    (hload : l.loadOn disk w.noting source (l.onset (writer, []) s) = (skipped, loaded, st))
    (hfailed : loaded = .error e ∧ st' = st ∨
      loaded = .ok () ∧ finishOn disk w.noting st = (.error e, st'))
    (hnotes : w.Quiet → st'.site.notes = st.site.notes)
    (hattended : ∀ last, Attended (Loader.counted skipped (l.rules.rejected xs).length)
      (l.rules.acceptedRows xs) (.error ⟨(Loader.counted skipped
        (l.rules.rejected xs).length).withCounts (reached last), e⟩)
      (st'.writer.2 ++ [.close true last]))
    (hraises : l.Raises disk w.noting source (l.onset (writer, []) s) e) :
    l.Lived disk w source writer s skipped xs (l.runOn disk w.noting source (writer, []) s) := by
  obtain ⟨last, st'', habandon, hcalls, hquiet⟩ := abandonOn_noting disk w st'
  have hrun := runOn_of_abandon hload hfailed habandon
  rw [h.count] at hrun
  refine ⟨hreads, ?_, hreads.increasing _, fun hw name hname => ?_, ?_,
    fun e' => ⟨?_, fun hraises' => hraises'.runOn_error⟩⟩
  · rw [hrun]
    exact (l.rules.length_rejections l.context xs).symm
  · rw [hrun]
    dsimp only
    rw [heard_report hname, Site.heard_of_notes ((hquiet hw).trans (hnotes hw)),
      h.heard hw name hname]
  · rw [hrun]
    dsimp only
    rw [hcalls]
    exact hattended last
  · rintro ⟨summary, hfails⟩
    cases (congrArg Prod.fst hrun).symm.trans hfails
    exact hraises

/-- A run whose writer is closed. -/
theorem Underway.lived_closed (h : l.Underway w s xs st)
    (htaken : st.writer.2 = Call.taken (l.rules.acceptedRows xs))
    (hreads : l.Reads source (l.onset (writer, ([] : List Call)) s) skipped xs)
    (hload : l.loadOn disk w.noting source (l.onset (writer, []) s) = (skipped, .ok (), st))
    {counts : Counts} (hfinish : finishOn disk w.noting st = (.ok counts, st'))
    (hcalls : st'.writer.2 = st.writer.2 ++ [.close false (.ok counts)])
    (hnotes : w.Quiet → st'.site.notes = st.site.notes) :
    l.Lived disk w source writer s skipped xs (l.runOn disk w.noting source (writer, []) s) := by
  have hrun := runOn_of_finish hload hfinish
  rw [h.count] at hrun
  refine ⟨hreads, ?_, hreads.increasing _, fun hw name hname => ?_, ?_,
    fun e' => ⟨?_, fun hraises' => hraises'.runOn_error⟩⟩
  · rw [hrun]
    exact (l.rules.length_rejections l.context xs).symm
  · rw [hrun]
    dsimp only
    rw [notes_observers hname, Site.heard_of_notes (hnotes hw), h.heard hw name hname]
    rfl
  · rw [hrun]
    dsimp only
    rw [hcalls, htaken]
    exact .closed counts
  · rintro ⟨summary, hfails⟩
    cases (congrArg Prod.fst hrun).symm.trans hfails

/-- A run whose loop has come to a good end, whatever happens behind it. -/
theorem Underway.lived_behind {mid : RecordReader} (h : l.Underway w s xs st)
    (htaken : st.writer.2 = Call.taken (l.rules.acceptedRows xs))
    (hbegun : l.Begun source (l.onset (writer, ([] : List Call)) s) skipped mid)
    (hpassage : Passage disk w.noting l.rules l.options.limit mid (l.onset (writer, []) s) xs
      (.ok ()) st) :
    l.Lived disk w source writer s skipped xs (l.runOn disk w.noting source (writer, []) s) := by
  have hload := loadOn_of_passage hbegun hpassage
  obtain ⟨last, hyields⟩ := hpassage.yields
  have hreads : l.Reads source (l.onset (writer, ([] : List Call)) s) skipped xs :=
    .inr ⟨mid, last, hbegun, hyields⟩
  rcases hflush : st.rejects.flushOn disk st.site with ⟨e | _, rejects, site⟩
  · obtain ⟨-, -, -, hnotes⟩ := Rejects.told_flushOn hflush
    refine h.lived hreads hload (.inr ⟨rfl, finishOn_of_flush_error hflush⟩)
      (fun _ => hnotes) (fun last => ?_) (.flushing hbegun hpassage (congrArg Prod.fst hflush))
    dsimp only
    rw [htaken]
    exact .abandoned e last
  · obtain ⟨-, -, -, hnotes⟩ := Rejects.told_flushOn hflush
    rcases hclose : w.close st.writer.1 false site with ⟨answer, x, site'⟩
    have hnoted := Writer.noting_close (x := st.writer) hclose
    have hfinish := finishOn_of_close hflush hnoted
    have hquiet : w.Quiet → site'.notes = st.site.notes := by
      intro hw
      have hsame := hw.close st.writer.1 false site
      rw [hclose] at hsame
      exact hsame.trans hnotes
    cases answer with
    | error e =>
      refine h.lived hreads hload (.inr ⟨rfl, hfinish⟩) hquiet (fun last => ?_)
        (.closing hbegun hpassage hflush (congrArg Prod.fst hnoted))
      dsimp only
      rw [htaken, List.append_assoc]
      exact .unclosed e last
    | ok counts => exact h.lived_closed htaken hreads hload hfinish rfl hquiet

/-- A run that has dealt with the records of a passage, however that ends. -/
theorem Begun.lived {mid : RecordReader}
    (hbegun : l.Begun source (l.onset (writer, ([] : List Call)) s) skipped mid)
    (hpassage : Passage disk w.noting l.rules l.options.limit mid (l.onset (writer, []) s) xs
      loaded st) :
    l.Lived disk w source writer s skipped xs (l.runOn disk w.noting source (writer, []) s) := by
  have hload := loadOn_of_passage hbegun hpassage
  have hunder := (l.underway_start w s (writer, [])).passage hpassage
  have hgiven := hpassage.given (show _ = Call.taken [] from rfl)
  rw [List.nil_append] at hunder hgiven
  obtain ⟨last, hyields⟩ := hpassage.yields
  have hreads : l.Reads source (l.onset (writer, ([] : List Call)) s) skipped xs :=
    .inr ⟨mid, last, hbegun, hyields⟩
  generalize hcalls : st.writer.2 = calls at hgiven
  cases hgiven with
  | @refused before entry e rows_eq =>
    refine hunder.lived hreads hload (.inl ⟨rfl, rfl⟩) (fun _ => rfl) (fun last => ?_)
      (.reading hbegun hpassage)
    rw [hcalls, List.append_assoc]
    exact .refused e last rows_eq
  | taken =>
  cases loaded with
  | error e =>
    refine hunder.lived hreads hload (.inl ⟨rfl, rfl⟩) (fun _ => rfl) (fun last => ?_)
      (.reading hbegun hpassage)
    rw [hcalls]
    exact .abandoned e last
  | ok _ => exact hunder.lived_behind hcalls hbegun hpassage

end Lived

/-- A disk without room: what is added waits, and cannot be written. -/
def fullDisk : Disk where
  append := BadFile.append
  flush b d := (.error (.other "No space left on device"), b, d)

/-- The input has been read and the row stored when it turns out that the
rejected record cannot be written. -/
example : (integers.runOn fullDisk LocalWriter.writer (.bytes { rest := Bytes.ascii "1\nx\n" })
    (tableWriter fun _ _ => none) {}).1
      = .error ⟨{ loaded := 1, parseRejected := 1 },
        .io (.other "No space left on device")⟩ := by decide +kernel

end Loader
end Intake
