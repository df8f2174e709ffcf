import Intake.Proofs.Run.Replay
/-!
# What an observer hears of a run

An observer that notes what it hears (`Observer.Notes`) has in the end
heard of the start, of each record that was rejected, in their order, and
of the end (`Loader.Reported`); and the number of rejected records in the
summary is that of those it has heard of. Nothing is assumed of the rest
of the run: files that cannot be opened, a catalog that fails, a writer
that refuses rows or cannot be closed make no difference to that, but the
writer must leave the notes alone (`Writer.Quiet`), as a writer over a
storage does.

The account is followed through a trace (`Loader.Told`), a record at a
time.
-/

namespace Intake

/-- The events that are noted under a name. -/
def Site.heard (name : String) (s : Site) : List Event :=
  (s.notes.filter fun note => note.observer == name).map Note.event

namespace Observer

variable {name : String} {o : Observer}

/-- An observer that notes what it hears under a name. -/
def Notes (name : String) (o : Observer) : Prop :=
  ∀ e s, (o e s).heard name = s.heard name ++ [e]

/-- An observer that leaves alone what is noted under a name. -/
def Quiet (name : String) (o : Observer) : Prop := ∀ e s, (o e s).heard name = s.heard name

theorem notes_noting (name : String) : (noting name).Notes name := by
  intro e s
  show ((s.notes ++ [Note.mk name e]).filter _).map Note.event = _
  rw [List.filter_append, List.map_append]
  simp [Site.heard]

theorem quiet_file (path : String) : (file path).Quiet name := by
  intro e s
  unfold file
  rcases s.directory.openToAppend path with ⟨_ | opened, directory⟩ <;> rfl

theorem quiet_console : console.Quiet name := by
  intro e s
  unfold console
  cases consoleLine? e <;> rfl

theorem quiet_all {os : List Observer} (h : ∀ o ∈ os, o.Quiet name) : (all os).Quiet name := by
  intro e s
  unfold all
  induction os generalizing s with
  | nil => rfl
  | cons o os ih =>
    exact (ih (fun o ho => h o (List.mem_cons_of_mem _ ho)) _).trans (h o List.mem_cons_self e s)

/-- An observer that notes, and after it others. -/
theorem Notes.all {os : List Observer} (h : o.Notes name) (hos : ∀ o ∈ os, o.Quiet name) :
    (all (o :: os)).Notes name := by
  intro e s
  exact (quiet_all hos e (o e s)).trans (h e s)

end Observer

/-! ## Writers -/

/-- A writer that leaves alone what observers have noted. -/
structure Writer.Quiet {σ : Type} (w : Writer σ) : Prop where
  insert : ∀ st row raw s, (w.insert st row raw s).2.2.notes = s.notes
  close : ∀ st onError s, (w.close st onError s).2.2.notes = s.notes

theorem Writer.Quiet.noting {σ : Type} {w : Writer σ} (h : w.Quiet) : w.noting.Quiet where
  insert st row raw s := h.insert st.1 row raw s
  close st onError s := h.close st.1 onError s

theorem Site.heard_of_notes {s s' : Site} (h : s'.notes = s.notes) (name : String) :
    s'.heard name = s.heard name := by
  unfold heard
  rw [h]

namespace Duplicates

theorem notes_reject (t : Duplicates) (record : Bytes) (s : Site) :
    (t.reject record s).2.2.notes = s.notes := by
  unfold reject
  rcases t.file.append record s.directory with ⟨_ | _, file, directory⟩
  · rfl
  · dsimp only
    split <;> rfl

theorem notes_record (t : Duplicates) (outcome : Outcome) (raw : Bytes) (s : Site) :
    (t.record outcome raw s).2.2.notes = s.notes := by
  cases outcome with
  | inserted => rfl
  | discarded key =>
    unfold record
    dsimp only
    split
    · rfl
    · exact notes_reject ..
  | replaced key old => exact notes_reject ..

end Duplicates

namespace LocalWriter

theorem notes_recordAll (t : Duplicates) (s : Site) (stored : List (Outcome × Bytes)) :
    (recordAll t s stored).2.2.notes = s.notes := by
  induction stored generalizing t s with
  | nil => rfl
  | cons entry stored ih =>
    obtain ⟨outcome, raw⟩ := entry
    have hrecord := t.notes_record outcome raw s
    unfold recordAll
    generalize t.record outcome raw s = out at hrecord ⊢
    obtain ⟨_ | _, t, s'⟩ := out
    · exact hrecord
    · exact (ih t s').trans hrecord

theorem notes_flush (w : LocalWriter) (s : Site) : (w.flush s).2.2.notes = s.notes := by
  unfold flush
  split
  · rfl
  · rcases w.storage.insertAll w.duplicates.keep s.directory w.slots.batch with
      ⟨_ | outcomes, storage, directory⟩
    · rfl
    · exact notes_recordAll ..

theorem notes_insertDirect (w : LocalWriter) (row : Row) (raw : Bytes) (s : Site) :
    (w.insertDirect row raw s).2.2.notes = s.notes := by
  unfold insertDirect
  rcases w.storage.insert row w.duplicates.keep s.directory with
    ⟨_ | outcome, storage, directory⟩
  · rfl
  · exact w.duplicates.notes_record ..

theorem notes_finish (w : LocalWriter) (s : Site) : (w.finish s).2.2.notes = s.notes := by
  unfold finish
  rcases w.storage.finish s.directory with ⟨_ | _, storage, directory⟩ <;> rfl

/-- **A writer over a storage notes nothing.** -/
theorem quiet : writer.Quiet where
  insert w row raw s := by
    show (w.insert row raw s).2.2.notes = s.notes
    unfold insert
    split
    · rfl
    · split
      · exact notes_insertDirect ..
      · dsimp only
        split
        · exact notes_flush ..
        · rfl
  close w onError s := by
    show (w.close onError s).2.2.notes = s.notes
    unfold close
    split
    · rfl
    dsimp only
    split
    · rfl
    · have hflush := notes_flush { w with closed := true } s
      generalize flush { w with closed := true } s = out at hflush ⊢
      obtain ⟨_ | _, w', s'⟩ := out
      · exact hflush
      · exact (notes_finish w' s').trans hflush

end LocalWriter

/-! ## Records -/

namespace Rules

variable (r : Rules)

/-- What is told of a record, if it is rejected. -/
def rejection? (c : Context) (x : Record) : Option Event :=
  match (r.judge x).outcome with
  | .error (.rejected rejection) =>
    some (.rejected c rejection.kind x.number rejection.message)
  | _ => none

/-- What is told of some records. -/
def rejections (c : Context) (xs : List Record) : List Event := xs.filterMap (r.rejection? c)

theorem rejections_concat (c : Context) (xs : List Record) (x : Record) :
    r.rejections c (xs ++ [x]) = r.rejections c xs ++ (r.rejection? c x).toList := by
  unfold rejections
  rw [List.filterMap_append]
  cases h : r.rejection? c x <;> simp [h]

/-- Each record that is rejected is told of once. -/
theorem length_rejections (c : Context) (xs : List Record) :
    (r.rejections c xs).length = (r.rejected xs).length := by
  induction xs with
  | nil => rfl
  | cons x xs ih =>
    unfold rejections rejected rejection? rejects at ih ⊢
    rcases houtcome : (r.judge x).outcome with (rejection | e) | _ <;> simp [houtcome, ih]

end Rules

namespace Loader

variable {σ : Type}

/-- What is told at the end of a run. -/
def ending (l : Loader) : Except LoadFailure Summary → List Event
  | .ok summary => [.succeeded l.context summary]
  | .error f =>
    .failed l.context (Severity.of f.error) f.error f.summary ::
      if l.alertAt.rank ≤ (Severity.of f.error).rank then
        [.alerted l.context (Severity.of f.error) f.error f.summary]
      else []

/-- What has been told of a run that has dealt with some records, to each
observer that notes what it hears. -/
structure Told (l : Loader) (s : Site) (xs : List Record) (st : State σ) : Prop where
  count : st.rejects.count = (l.rules.rejected xs).length
  context : st.rejects.context = l.context
  observer : st.rejects.observer = l.observers
  heard : ∀ name, l.observer.Notes name →
    st.site.heard name = s.heard name ++ .started l.context :: l.rules.rejections l.context xs

/-- What is known of a run that has dealt with some records, when it is
over: each that was rejected is counted, and was told of. -/
structure Reported (l : Loader) (s : Site) (xs : List Record)
    (out : Except LoadFailure Summary × σ × Site) : Prop where
  counted : (countsOf out.1).parseRejected = (l.rules.rejected xs).length
  heard : ∀ name, l.observer.Notes name → out.2.2.heard name
    = s.heard name ++ .started l.context :: l.rules.rejections l.context xs ++ l.ending out.1

section Told

variable {l : Loader} {w : Writer σ} {s : Site} {xs ys : List Record} {x : Record}
  {st st' : State σ} {source : Source} {writer : σ}

theorem notes_observers {name : String} (h : l.observer.Notes name) :
    l.observers.Notes name := by
  unfold observers
  cases l.options.logFile with
  | none => exact h
  | some path => exact h.all fun _ ho => List.mem_singleton.mp ho ▸ Observer.quiet_file path

theorem Told.start (l : Loader) (s : Site) (writer : σ) :
    l.Told s [] ⟨writer, l.rejects, l.observers (.started l.context) s⟩ :=
  ⟨rfl, rfl, rfl, fun _ h => notes_observers h _ s⟩

/-- The account of one record more: it is counted and told of, also where
it cannot be kept. -/
theorem told_reject {r r' : Rejects} {s s' : Site} {record : Nat} {raw : Bytes}
    {rejection : Rejection} {outcome : Except LoadError Unit}
    (hreject : r.reject record raw rejection s = (outcome, r', s')) :
    r'.count = r.count + 1 ∧ r'.context = r.context ∧ r'.observer = r.observer ∧
      ∀ name, r.observer.Notes name → s'.heard name
        = s.heard name ++ [.rejected r.context rejection.kind record rejection.message] := by
  have hheard := fun name (h : r.observer.Notes name) =>
    h (.rejected r.context rejection.kind record rejection.message)
      (s.warn (({ r with count := r.count + 1 } : Rejects).logText raw rejection.message))
  unfold Rejects.reject at hreject
  dsimp only at hreject
  generalize r.observer (.rejected r.context rejection.kind record rejection.message)
    (s.warn (({ r with count := r.count + 1 } : Rejects).logText raw rejection.message)) = told
    at hreject hheard
  generalize r.file.append raw told.directory = appended at hreject
  obtain ⟨_ | _, file, directory⟩ := appended
  · cases hreject
    exact ⟨rfl, rfl, rfl, hheard⟩
  · dsimp only at hreject
    split at hreject <;>
    · cases hreject
      exact ⟨rfl, rfl, rfl, hheard⟩

/-- **One record more**, whatever becomes of it. -/
theorem Told.dealt (h : l.Told s xs st) (hw : w.Quiet) {outcome : Except LoadError Unit}
    (hdealt : Dealt w l.rules x st outcome st') : l.Told s (xs ++ [x]) st' := by
  obtain ⟨hcount, hcontext, hobserver, hheard⟩ := h
  cases hdealt with
  | accepted judged insert =>
    have hquiet := hw.insert st.writer (l.rules.judge x).row x.raw
      (st.site.request (l.rules.judge x).requests)
    rw [insert] at hquiet
    refine ⟨?_, hcontext, hobserver, fun name hname => ?_⟩
    · rw [Rules.rejected_concat]
      simp [Rules.rejects, judged, hcount]
    · rw [Rules.rejections_concat]
      simp only [Rules.rejection?, judged, Option.toList_none, List.append_nil]
      exact (Site.heard_of_notes hquiet name).trans (hheard name hname)
  | rejected judged reject =>
    obtain ⟨hcount', hcontext', hobserver', hheard'⟩ := told_reject reject
    refine ⟨?_, hcontext'.trans hcontext, hobserver'.trans hobserver, fun name hname => ?_⟩
    · rw [Rules.rejected_concat]
      simp [Rules.rejects, judged, hcount', hcount]
    · rw [Rules.rejections_concat]
      simp only [Rules.rejection?, judged, Option.toList_some]
      have hsame : (st.site.request (l.rules.judge x).requests).heard name
          = st.site.heard name := rfl
      rw [hheard' name (hobserver ▸ notes_observers hname), hsame, hheard name hname, hcontext,
        List.append_assoc]
      rfl
  | fatal judged =>
    refine ⟨?_, hcontext, hobserver, fun name hname => ?_⟩
    · rw [Rules.rejected_concat]
      simp [Rules.rejects, judged, hcount]
    · rw [Rules.rejections_concat]
      simp only [Rules.rejection?, judged, Option.toList_none, List.append_nil]
      exact hheard name hname

/-- **All records of a trace**, however it ends. -/
theorem Told.trace {left : Option Nat} {reader : RecordReader} {outcome : Except LoadError Unit}
    (h : l.Told s xs st) (hw : w.Quiet)
    (htrace : Trace w l.rules left reader st ys outcome st') : l.Told s (xs ++ ys) st' := by
  induction htrace generalizing xs with
  | spent => exact (List.append_nil xs).symm ▸ h
  | interrupted => exact (List.append_nil xs).symm ▸ h
  | ended => exact (List.append_nil xs).symm ▸ h
  | unread => exact (List.append_nil xs).symm ▸ h
  | stopped _ _ _ dealt => exact h.dealt hw dealt
  | turn _ _ _ dealt _ ih =>
    rw [List.append_cons]
    exact ih (h.dealt hw dealt)

/-- Closing tells nothing. -/
theorem notes_finish (hw : w.Quiet) (st : State σ) :
    (finish w st).2.site.notes = st.site.notes := by
  have hquiet := hw.close st.writer false (st.rejects.flush st.site).2
  rcases hclose : w.close st.writer false (st.rejects.flush st.site).2 with ⟨last, x, site⟩
  rw [hclose] at hquiet
  rw [finish_of_close hclose]
  exact hquiet

theorem notes_abandon (hw : w.Quiet) (st : State σ) :
    (abandon w st).2.site.notes = st.site.notes := by
  have hquiet := hw.close st.writer true (st.rejects.flush st.site).2
  rcases hclose : w.close st.writer true (st.rejects.flush st.site).2 with ⟨last, x, site⟩
  rw [hclose] at hquiet
  rw [abandon_of_close hclose]
  exact hquiet

/-- The report of a failure tells of it, and raises an alert where it is
grave enough. -/
theorem heard_report {name : String} (h : l.observer.Notes name) (e : LoadError)
    (summary : Summary) (s : Site) :
    (l.report e summary s).heard name = s.heard name ++ l.ending (.error ⟨summary, e⟩) := by
  have hnotes := notes_observers h
  unfold report
  dsimp only
  generalize hlogged : (if e.isInterrupt then _ else _ : Site) = logged
  have hsame : logged.heard name = s.heard name := by
    rw [← hlogged]
    split <;> rfl
  show _ = s.heard name ++ .failed l.context (Severity.of e) e summary :: ite _ _ _
  split
  · rw [hnotes, hnotes, hsame, List.append_assoc]
    rfl
  · rw [hnotes, hsame]

/-- A failure that is reported after closing in error mode. -/
theorem Told.failed (h : l.Told s xs st) (hw : w.Quiet)
    (hnotes : st'.site.notes = st.site.notes) (e : LoadError) (summary : Summary)
    {name : String} (hname : l.observer.Notes name) :
    (l.report e summary (abandon w st').2.site).heard name
      = s.heard name ++ .started l.context :: l.rules.rejections l.context xs
        ++ l.ending (.error ⟨summary, e⟩) := by
  rw [heard_report hname, Site.heard_of_notes ((notes_abandon hw st').trans hnotes),
    h.heard name hname]

/-- **A run that has dealt with some records when its loop has ended**,
however it ends itself. -/
theorem Told.run (h : l.Told s xs st) (hw : w.Quiet) {skipped : Nat}
    {outcome : Except LoadError Unit}
    (hload : l.load w source ⟨writer, l.rejects, l.observers (.started l.context) s⟩
      = (skipped, outcome, st)) : l.Reported s xs (l.run w source writer s) := by
  unfold Loader.run
  dsimp only
  rw [hload]
  cases outcome with
  | error e =>
    dsimp only
    have hfailed := h.failed hw rfl e
    generalize abandon w st = closed at hfailed ⊢
    obtain ⟨_ | counts, st'⟩ := closed <;> exact ⟨h.count, fun _ hname => hfailed _ hname⟩
  | ok _ =>
    dsimp only
    have hnotes := notes_finish hw st
    generalize finish w st = finished at hnotes ⊢
    obtain ⟨e | counts, st'⟩ := finished
    · dsimp only at hnotes ⊢
      have hfailed := h.failed hw hnotes e
      generalize abandon w st' = closed at hfailed ⊢
      obtain ⟨_ | counts, st''⟩ := closed <;> exact ⟨h.count, fun _ hname => hfailed _ hname⟩
    · refine ⟨h.count, fun name hname => ?_⟩
      dsimp only at hnotes ⊢
      rw [notes_observers hname, Site.heard_of_notes hnotes, h.heard name hname]
      rfl

end Told

end Loader
end Intake
