import Intake.Proofs.Run.Events
import Intake.Proofs.Run.Window
import Intake.Proofs.Writer.Balance
/-!
# No record is unaccounted for

A run that succeeds with a writer over a table has done one of four things
with each record of its window: stored its row, left the row out for one
of its key, put it in the place of one, or rejected the record. The
summary counts each record once, and the table has what was there, less
what was replaced, and what was stored (`Loader.run_balanced`).

While records are dealt with, the writer keeps abreast of them
(`Abreast`): it has taken the rows of those that were accepted and no
others, and they are all counted or wait for their batch. One record is
`Abreast.dealt`, all of them are an induction on the trace. Nothing fails
in a run that succeeds, so that no row is adrift when the writer is
closed.
-/

namespace Intake

open scoped List

/-- A row was stored beside the others, left out, or stored in the place of
one. -/
theorem Outcome.countP_add (outcomes : List Outcome) :
    outcomes.countP isGain + outcomes.countP isDiscard + outcomes.countP isReplacement
      = outcomes.length := by
  induction outcomes with
  | nil => rfl
  | cons outcome outcomes ih =>
    simp only [List.countP_cons, List.length_cons]
    cases outcome <;> simp only [isGain, isDiscard, isReplacement] <;> simp <;> omega

namespace Loader

/-! ## While records are dealt with -/

/-- A writer that began over a table has taken the rows of the accepted
records, and the other records were rejected. -/
structure Abreast (rules : Rules) (start : LocalWriter) (t : Table) (xs : List Record)
    (w : LocalWriter) : Prop where
  level : ∃ past, LocalWriter.Level start t ((rules.acceptedRows xs).map Prod.fst) w past
  opened : w.closed = false
  total : w.total = (rules.acceptedRows xs).length
  whole : xs.length = (rules.acceptedRows xs).length + (rules.rejected xs).length

section Abreast

variable {rules : Rules} {start : LocalWriter} {t : Table} {xs ys : List Record} {x : Record}
  {st st' : State LocalWriter}

theorem abreast_start (h : start.Fresh t) : Abreast rules start t [] start where
  level := ⟨[], h.level⟩
  opened := h.opened
  total := by
    rw [LocalWriter.total, h.counts, h.pending]
    rfl
  whole := rfl

/-- **One record more** with which nothing goes wrong. -/
theorem Abreast.dealt (h : Abreast rules start t xs st.writer)
    (hdealt : Dealt LocalWriter.writer rules x st (.ok ()) st') :
    Abreast rules start t (xs ++ [x]) st'.writer := by
  obtain ⟨⟨past, hlevel⟩, hopen, htotal, hwhole⟩ := h
  generalize houtcome : (Except.ok () : Except LoadError Unit) = outcome at hdealt
  cases hdealt with
  | @accepted answer writer site judged insert =>
    obtain ⟨_, rfl⟩ : ∃ u, answer = .ok u := by
      cases answer with
      | error => cases houtcome
      | ok u => exact ⟨u, rfl⟩
    have haccepts : rules.accepts x = true := by simp only [Rules.accepts, judged]
    have hrejects : rules.rejects x = false := by simp only [Rules.rejects, judged]
    obtain ⟨hclosed, htaken, -⟩ := hlevel.insert hopen (rules.judge x).row x.raw
      (st.site.request (rules.judge x).requests)
    have hinsert : st.writer.insert (rules.judge x).row x.raw
        (st.site.request (rules.judge x).requests) = (.ok (), writer, site) := insert
    have hmore := (LocalWriter.insert_total hinsert).1
    rw [hinsert] at hclosed htaken
    have hrows : rules.acceptedRows (xs ++ [x])
        = rules.acceptedRows xs ++ [((rules.judge x).row, x.raw)] := by
      rw [Rules.acceptedRows_concat, if_pos haccepts]
    have hnone : rules.rejected (xs ++ [x]) = rules.rejected xs := by
      rw [Rules.rejected_concat, hrejects]
      exact List.append_nil _
    refine ⟨?_, hclosed, ?_, ?_⟩
    · rw [hrows, List.map_append]
      exact htaken rfl
    · rw [hrows, List.length_append, hmore, htotal]
      rfl
    · rw [hrows, hnone, List.length_append, List.length_append, hwhole]
      simp only [List.length_singleton]
      omega
  | rejected judged _ =>
    have haccepts : ¬ rules.accepts x = true := by simp [Rules.accepts, judged]
    have hrejects : rules.rejects x = true := by simp only [Rules.rejects, judged]
    have hrows : rules.acceptedRows (xs ++ [x]) = rules.acceptedRows xs := by
      rw [Rules.acceptedRows_concat, if_neg haccepts, List.append_nil]
    refine ⟨hrows ▸ ⟨past, hlevel⟩, hopen, hrows ▸ htotal, ?_⟩
    rw [hrows, Rules.rejected_concat, if_pos hrejects, List.length_append, List.length_append,
      hwhole]
    simp only [List.length_singleton]
    omega
  | fatal => cases houtcome

/-- **All records of a trace** that comes to a good end. -/
theorem Abreast.trace {left : Option Nat} {reader : RecordReader}
    (h : Abreast rules start t xs st.writer)
    (htrace : Trace LocalWriter.writer rules left reader st ys (.ok ()) st') :
    Abreast rules start t (xs ++ ys) st'.writer := by
  generalize houtcome : (Except.ok () : Except LoadError Unit) = outcome at htrace
  induction htrace generalizing xs with
  | spent => exact (List.append_nil xs).symm ▸ h
  | ended => exact (List.append_nil xs).symm ▸ h
  | interrupted => cases houtcome
  | unread => cases houtcome
  | stopped => cases houtcome
  | turn _ _ _ dealt _ ih =>
    rw [List.append_cons]
    exact ih (h.dealt dealt) houtcome

end Abreast

/-! ## When the run is over -/

/-- How a run stands that has succeeded over a table, the records of its
input being `all`. -/
structure Balanced (l : Loader) (w : LocalWriter) (t : Table) (all : List Record)
    (summary : Summary) (w' : LocalWriter) : Prop where
  skipped : summary.skipped = l.options.skip
  enough : l.options.skip ≤ all.length
  /-- Each record of the window is counted once. -/
  counted : summary.loaded + summary.parseRejected + summary.duplicateNew + summary.duplicateOld
    = match l.options.limit with
      | none => all.length - l.options.skip
      | some most => min most (all.length - l.options.skip)
  /-- What has become of the rows of the accepted records, of which there are
  as many of each kind as the summary says. -/
  stored : ∃ t' past, w'.storage.medium = .table t' ∧
    past.map Prod.fst
      = (l.rules.acceptedRows (l.attempted (all.drop l.options.skip))).map Prod.fst ∧
    Table.Course w.duplicates.keep t past t' ∧
    t'.rows ++ Table.replaced past ~ t.rows ++ Table.stored past ∧
    summary.loaded = (past.map Prod.snd).countP Outcome.isGain ∧
    summary.duplicateNew = (past.map Prod.snd).countP Outcome.isDiscard ∧
    summary.duplicateOld = (past.map Prod.snd).countP Outcome.isReplacement

section Run

variable {l : Loader} {source : Source} {w w' : LocalWriter} {t : Table} {s s' : Site}
  {summary : Summary}

/-- A run that succeeds has read its input well and closed its writer. -/
theorem ok_of_run {σ : Type} {v : Writer σ} {x x' : σ}
    (h : l.run v source x s = (.ok summary, x', s')) :
    ∃ skipped counts site, ∃ st : State σ,
      l.load v source ⟨x, l.rejects, l.observers (.started l.context) s⟩ = (skipped, .ok (), st) ∧
      v.close st.writer false (st.rejects.flush st.site).2 = (.ok counts, x', site) ∧
      summary = (counted skipped st.rejects.count).withCounts counts := by
  unfold run at h
  dsimp only at h
  rcases hload : l.load v source ⟨x, l.rejects, l.observers (.started l.context) s⟩ with
    ⟨skipped, _ | _, st⟩ <;> rw [hload] at h <;> dsimp only at h
  · cases h
  · rcases hclose : v.close st.writer false (st.rejects.flush st.site).2 with
      ⟨_ | counts, x₁, site⟩ <;> rw [finish_of_close hclose] at h <;> cases h
    exact ⟨skipped, counts, site, st, rfl, hclose, rfl⟩

/-- A run that succeeds has attempted its window, all of it. -/
theorem attempted_of_load {σ : Type} {v : Writer σ} {reader : RecordReader} {all : List Record}
    {stop : Except LoadError Unit} {skipped : Nat} {st st' : State σ}
    (hlayout : ∀ layout, l.options.layout = some layout → layout.Accepted)
    (hstart : RecordReader.start source l.options l.schema = .ok reader)
    (hall : reader.Delivers all stop) (hload : l.load v source st = (skipped, .ok (), st')) :
    skipped = l.options.skip ∧ l.options.skip ≤ all.length ∧
      ∃ mid, Trace v l.rules l.options.limit mid st (l.attempted (all.drop l.options.skip)) (.ok ())
        st' := by
  have hwindow := Windowed.of_delivers v hlayout hstart hall
  cases hpending : st.site.token.pending with
  | some kind => cases hload.symm.trans (load_of_pending hstart hpending)
  | none =>
    by_cases henough : l.options.skip ≤ all.countP Record.isWhole
    · obtain ⟨mid, xs, outcome, st'', -, htrace, hhalts, hload'⟩ :=
        hwindow.attempts st hpending henough
      cases hload.symm.trans hload'
      refine ⟨rfl, Nat.le_trans henough List.countP_le_length, mid, ?_⟩
      cases hhalts with
      | finished => exact htrace
    · obtain ⟨e, -, hload'⟩ := hwindow.short st hpending (Nat.lt_of_not_le henough)
      cases hload.symm.trans hload'

theorem length_attempted (l : Loader) (xs : List Record) :
    (l.attempted xs).length
      = match l.options.limit with
        | none => xs.length
        | some most => min most xs.length := by
  unfold attempted
  cases l.options.limit with
  | none => rfl
  | some most => exact List.length_take

/-- **No record is unaccounted for.** The records are those that a new
reader delivers, of which there is one list. -/
theorem run_balanced (hlayout : ∀ layout, l.options.layout = some layout → layout.Accepted)
    (hw : w.Fresh t) (hrun : l.run LocalWriter.writer source w s = (.ok summary, w', s')) :
    ∃ reader all stop, RecordReader.start source l.options l.schema = .ok reader ∧
      reader.Delivers all stop ∧ l.Balanced w t all summary w' := by
  obtain ⟨skipped, counts, site, st, hload, hclose, rfl⟩ := ok_of_run hrun
  cases hstart : RecordReader.start source l.options l.schema with
  | error e => cases hload.symm.trans (load_of_start_error hstart)
  | ok reader =>
  obtain ⟨hcounted, -⟩ := RecordReader.start_ok hstart
  obtain ⟨all, stop, hall, -⟩ := RecordReader.exists_delivers hcounted
  obtain ⟨rfl, henough, mid, htrace⟩ := attempted_of_load hlayout hstart hall hload
  have hlength := l.length_attempted (all.drop l.options.skip)
  rw [List.length_drop] at hlength
  have hrejected := ((Told.start l s w).trace LocalWriter.quiet htrace).count
  obtain ⟨⟨past, hlevel⟩, hopen, htotal, hwhole⟩ := (abreast_start hw).trace htrace
  rw [List.nil_append] at hrejected hlevel htotal hwhole
  obtain ⟨past, hledger, hrows, rfl⟩ := hlevel.closed hopen hclose
  have hcounts := hledger.counts
  have hcount := LocalWriter.close_total hopen hclose
  obtain ⟨t', hmedium, -, hcourse⟩ := hledger.table
  rw [List.append_nil] at hcourse
  have hpast := congrArg List.length hrows
  rw [List.length_map, List.length_map] at hpast
  have hkinds := Outcome.countP_add (past.map Prod.snd)
  rw [List.length_map] at hkinds
  have hloaded : w'.duplicates.counts.inserted = (past.map Prod.snd).countP Outcome.isGain := by
    rw [hcounts]
    rfl
  have hold : w'.duplicates.counts.duplicateOld
      = (past.map Prod.snd).countP Outcome.isReplacement := by
    rw [hcounts]
    rfl
  -- a row that was refused as an error would be missing in the sum
  have hnew : w'.duplicates.counts.duplicateNew
      = (past.map Prod.snd).countP Outcome.isDiscard := by
    simp only [Counts.total] at hcount
    omega
  refine ⟨reader, all, stop, rfl, hall, rfl, henough, ?_, t', past, hmedium, hrows, hcourse,
    hcourse.perm_rows, hloaded, hnew, hold⟩
  rw [← hlength, hwhole]
  show w'.duplicates.counts.inserted + st.rejects.count + w'.duplicates.counts.duplicateNew
    + w'.duplicates.counts.duplicateOld = _
  simp only [Counts.total] at hcount
  omega

end Run

/-! ## A window of four records -/

/-- A load of numbered names that passes over a heading. -/
def names : Loader where
  options := { skip := 1, limit := some 4, parseErrors := .unlimited }
  schema := ⟨[{ name := "id", type := .int32 }, { name := "name", type := .text }]⟩

/-- The table of a single name, with the numbers as its keys. -/
def oneName : Table :=
  (({ keyColumn := some 0 } : Table).insert (.ofValues [.int32 1, .ofString "old"]) .old).2

/-- Of the four records one is rejected, one takes the place of the stored
name, and one that of the third. -/
theorem run_balanced_names :
    let writer : LocalWriter :=
      { storage := { medium := .table oneName }
        duplicates := { policy := .keepNew, limit := .unlimited }
        batch := some 2 }
    let source := Source.bytes { rest := Bytes.ascii "id,name\n1,a\nx,b\n2,c\n2,d\n9,z\n" }
    let run := names.run LocalWriter.writer source writer {}
    let summary : Summary := { loaded := 1, skipped := 1, parseRejected := 1, duplicateOld := 2 }
    (∀ layout, names.options.layout = some layout → layout.Accepted) ∧ writer.Fresh oneName ∧
      run.1 = .ok summary ∧
      (∃ reader all stop, RecordReader.start source names.options names.schema = .ok reader ∧
        reader.Delivers all stop ∧ names.Balanced writer oneName all summary run.2.1) ∧
      run.2.1.storage.table?.map Table.rows
        = some [.ofValues [.int32 1, .ofString "a"], .ofValues [.int32 2, .ofString "d"]] := by
  intro writer source run summary
  have hlayout : ∀ layout, names.options.layout = some layout → layout.Accepted := nofun
  have hfresh : writer.Fresh oneName :=
    ⟨rfl, (Table.insert_handles (Table.indexed_empty _) _ _).1, rfl, rfl, rfl⟩
  have hok : run.1 = .ok summary := by decide +kernel
  have hrun : run = (.ok summary, run.2.1, run.2.2) := Prod.ext hok rfl
  exact ⟨hlayout, hfresh, hok, run_balanced hlayout hfresh hrun, by decide +kernel⟩

end Loader
end Intake
