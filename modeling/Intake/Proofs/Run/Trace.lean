import Intake.Proofs.Conversion.Attempt
import Intake.Proofs.Record.Stream
import Intake.Proofs.Writer.Course
import Intake.Run.Loader
/-!
# What the loop of a run does

The loop over the records as a relation: which records it has dealt with,
and how it ended (`Loader.Trace`). Every way to end is a constructor, and
a record that ends the loop is one of those it has dealt with. What is
done about one record is said in terms of the record by itself
(`Loader.Dealt`): the row that is used for all of them, the fuel and the
reader's arena do not occur.

A loop with enough fuel makes a trace (`exists_trace`), and a trace is
all that it can do (`Trace.records_eq`). Whatever is asked about a run is
then an induction on traces, with one case for a record and one for each
end.
-/

namespace Intake

theorem Rules.acceptedRows_append (r : Rules) (xs ys : List Record) :
    r.acceptedRows (xs ++ ys) = r.acceptedRows xs ++ r.acceptedRows ys := by
  unfold acceptedRows
  rw [List.filter_append, List.map_append]

namespace Loader

variable {σ : Type}

/-- What becomes of one record: how it ends the loop, if it does, and the
state after it. -/
inductive Dealt (w : Writer σ) (rules : Rules) (x : Record) (st : State σ) :
    Except LoadError Unit → State σ → Prop where
  /-- It is accepted, and its row is given to the writer. -/
  | accepted {outcome : Except WriterError Unit} {writer : σ} {site : Site}
      (judged : (rules.judge x).outcome = .ok ())
      (insert : w.insert st.writer (rules.judge x).row x.raw
        (st.site.request (rules.judge x).requests) = (outcome, writer, site)) :
      Dealt w rules x st (outcome.mapError .writer) ⟨writer, st.rejects, site⟩
  /-- It is rejected. -/
  | rejected {rejection : Rejection} {outcome : Except LoadError Unit} {rejects : Rejects}
      {site : Site} (judged : (rules.judge x).outcome = .error (.rejected rejection))
      (reject : st.rejects.reject x.number x.raw rejection
        (st.site.request (rules.judge x).requests) = (outcome, rejects, site)) :
      Dealt w rules x st outcome { st with rejects := rejects, site := site }
  /-- The catalog has failed over it. -/
  | fatal {e : LoadError} (judged : (rules.judge x).outcome = .error (.fatal e)) :
      Dealt w rules x st (.error e)
        { st with site := st.site.request (rules.judge x).requests }

/-- The same as a function. -/
def deal (w : Writer σ) (rules : Rules) (x : Record) (st : State σ) :
    Except LoadError Unit × State σ :=
  let site := st.site.request (rules.judge x).requests
  match (rules.judge x).outcome with
  | .ok () =>
    match w.insert st.writer (rules.judge x).row x.raw site with
    | (outcome, writer, site) => (outcome.mapError .writer, ⟨writer, st.rejects, site⟩)
  | .error (.rejected rejection) =>
    match st.rejects.reject x.number x.raw rejection site with
    | (outcome, rejects, site) => (outcome, { st with rejects := rejects, site := site })
  | .error (.fatal e) => (.error e, { st with site := site })

theorem dealt_iff {w : Writer σ} {rules : Rules} {x : Record} {st st' : State σ}
    {outcome : Except LoadError Unit} :
    Dealt w rules x st outcome st' ↔ deal w rules x st = (outcome, st') := by
  unfold deal
  constructor
  · intro h
    cases h with
    | accepted judged insert => simp only [judged, insert]
    | rejected judged reject => simp only [judged, reject]
    | fatal judged => simp only [judged]
  · intro h
    rcases hjudged : (rules.judge x).outcome with (rejection | e) | _
    · simp only [hjudged] at h
      cases h
      exact .rejected hjudged rfl
    · simp only [hjudged] at h
      cases h
      exact .fatal hjudged
    · simp only [hjudged] at h
      cases h
      exact .accepted hjudged rfl

/-- The records that the loop deals with, how it ends, and its last
state. -/
inductive Trace (w : Writer σ) (rules : Rules) : Option Nat → RecordReader → State σ →
    List Record → Except LoadError Unit → State σ → Prop where
  /-- No more records are to be attempted. -/
  | spent {reader : RecordReader} {st : State σ} : Trace w rules (some 0) reader st [] (.ok ()) st
  | interrupted {left : Option Nat} {reader : RecordReader} {st : State σ} {kind : Interrupt}
      (hleft : left ≠ some 0) (pending : st.site.token.pending = some kind) :
      Trace w rules left reader st [] (.error (.interrupted kind)) st
  /-- The input has ended. -/
  | ended {left : Option Nat} {reader last : RecordReader} {st : State σ}
      (hleft : left ≠ some 0) (calm : st.site.token.pending = none)
      (next : reader.next = (.ok none, last)) : Trace w rules left reader st [] (.ok ()) st
  /-- The reader has failed. -/
  | unread {left : Option Nat} {reader last : RecordReader} {st : State σ} {e : LoadError}
      (hleft : left ≠ some 0) (calm : st.site.token.pending = none)
      (next : reader.next = (.error e, last)) : Trace w rules left reader st [] (.error e) st
  /-- A record has ended the loop. -/
  | stopped {left : Option Nat} {reader last : RecordReader} {st st' : State σ} {x : Record}
      {e : LoadError} (hleft : left ≠ some 0) (calm : st.site.token.pending = none)
      (next : reader.next = (.ok (some x), last)) (dealt : Dealt w rules x st (.error e) st') :
      Trace w rules left reader st [x] (.error e) st'
  | turn {left : Option Nat} {reader mid : RecordReader} {st st₁ st' : State σ} {x : Record}
      {xs : List Record} {outcome : Except LoadError Unit}
      (hleft : left ≠ some 0) (calm : st.site.token.pending = none)
      (next : reader.next = (.ok (some x), mid)) (dealt : Dealt w rules x st (.ok ()) st₁)
      (rest : Trace w rules (left.map (· - 1)) mid st₁ xs outcome st') :
      Trace w rules left reader st (x :: xs) outcome st'

section Trace

variable {w : Writer σ} {rules : Rules} {left : Option Nat} {reader reader' : RecordReader}
  {row : Row} {st st' : State σ} {x : Record} {xs : List Record}
  {outcome : Except LoadError Unit}

/-- The records of a trace come from its reader. -/
theorem Trace.yields (h : Trace w rules left reader st xs outcome st') :
    ∃ mid, reader.Yields xs mid := by
  induction h with
  | spent => exact ⟨_, .nil _⟩
  | interrupted => exact ⟨_, .nil _⟩
  | ended => exact ⟨_, .nil _⟩
  | unread => exact ⟨_, .nil _⟩
  | stopped _ _ next => exact ⟨_, .cons next (.nil _)⟩
  | turn _ _ next _ _ ih =>
    obtain ⟨last, hyields⟩ := ih
    exact ⟨last, .cons next hyields⟩

/-- A record that is accepted is given to the writer, and no other. -/
theorem Dealt.given {st st' : State (σ × List Call)}
    (h : Dealt w.noting rules x st outcome st') :
    Call.given st'.writer.2 = Call.given st.writer.2 ++ rules.acceptedRows [x] := by
  cases h with
  | accepted judged insert =>
    have haccepts : rules.accepts x = true := by simp only [Rules.accepts, judged]
    rcases hinsert : w.insert st.writer.1 (rules.judge x).row x.raw
      (st.site.request (rules.judge x).requests) with ⟨answer, writer, site⟩
    cases insert.symm.trans (Writer.noting_insert hinsert)
    rw [Rules.acceptedRows, List.filter_cons_of_pos haccepts]
    exact Call.given_append ..
  | rejected judged reject =>
    have haccepts : ¬ rules.accepts x = true := by simp [Rules.accepts, judged]
    rw [Rules.acceptedRows, List.filter_cons_of_neg haccepts]
    exact (List.append_nil _).symm
  | fatal judged =>
    have haccepts : ¬ rules.accepts x = true := by simp [Rules.accepts, judged]
    rw [Rules.acceptedRows, List.filter_cons_of_neg haccepts]
    exact (List.append_nil _).symm

/-- **The writer is given the rows of the records that are accepted**, in
their order. -/
theorem Trace.given {st st' : State (σ × List Call)}
    (h : Trace w.noting rules left reader st xs outcome st') :
    Call.given st'.writer.2 = Call.given st.writer.2 ++ rules.acceptedRows xs := by
  induction h with
  | spent => exact (List.append_nil _).symm
  | interrupted => exact (List.append_nil _).symm
  | ended => exact (List.append_nil _).symm
  | unread => exact (List.append_nil _).symm
  | stopped _ _ _ dealt => exact dealt.given
  | @turn _ _ _ _ _ _ x xs _ _ _ _ dealt _ ih =>
    rw [ih, dealt.given, List.append_assoc, ← Rules.acceptedRows_append, List.singleton_append]

/-- One record, in the row that it is converted into. -/
theorem records_record (hleft : left ≠ some 0) (hcalm : st.site.token.pending = none)
    (hnext : reader.next = (.ok (some x), reader')) (hrow : row.Shaped rules.schema.width)
    (fuel : Nat) :
    ∃ outcome st₁ row₁, Dealt w rules x st outcome st₁ ∧ row₁.Shaped rules.schema.width ∧
      records w rules (fuel + 1) left reader row st
        = match outcome with
          | .error e => (.error e, st₁)
          | .ok () => records w rules fuel (left.map (· - 1)) reader' row₁ st₁ := by
  obtain ⟨houtcome, hrequests, hsame, hshaped, -⟩ := rules.attempt_of_shaped x hrow
  rw [records, if_neg hleft, hcalm]
  dsimp only
  rw [hnext]
  dsimp only
  rw [houtcome, hrequests]
  rcases hjudged : (rules.judge x).outcome with (rejection | e) | _
  · rcases hreject : st.rejects.reject x.number x.raw rejection
      (st.site.request (rules.judge x).requests) with ⟨outcome, rejects, site⟩
    refine ⟨outcome, _, _, .rejected hjudged hreject, hshaped, ?_⟩
    rw [Rejects.absorb, hreject]
    cases outcome <;> rfl
  · exact ⟨_, _, row, .fatal hjudged, hrow, rfl⟩
  · rcases hinsert : w.insert st.writer (rules.judge x).row x.raw
      (st.site.request (rules.judge x).requests) with ⟨outcome, writer, site⟩
    refine ⟨_, _, _, .accepted hjudged hinsert, hshaped, ?_⟩
    rw [Rejects.absorb]
    dsimp only
    rw [hsame (houtcome.trans hjudged), hinsert]
    cases outcome <;> rfl

/-- **A loop with more fuel than its reader has bytes or rows left makes a
trace.** -/
theorem exists_trace (w : Writer σ) (rules : Rules) (left : Option Nat) (st : State σ)
    (hreader : reader.Counted) (hrow : row.Shaped rules.schema.width) {fuel : Nat}
    (hfuel : reader.left < fuel) :
    ∃ xs, Trace w rules left reader st xs (records w rules fuel left reader row st).1
      (records w rules fuel left reader row st).2 := by
  induction fuel generalizing left reader row st with
  | zero => cases hfuel
  | succ fuel ih =>
    by_cases hleft : left = some 0
    · subst hleft
      exact ⟨[], .spent⟩
    rcases hpending : st.site.token.pending with _ | kind
    · rcases hnext : reader.next with ⟨_ | _ | x, reader'⟩
      · refine ⟨[], ?_⟩
        simp only [records, hleft, hpending, hnext, if_false]
        exact .unread hleft hpending hnext
      · refine ⟨[], ?_⟩
        simp only [records, hleft, hpending, hnext, if_false]
        exact .ended hleft hpending hnext
      · obtain ⟨outcome, st₁, row₁, hdealt, hrow₁, hrecords⟩ :=
          records_record (w := w) hleft hpending hnext hrow fuel
        rw [hrecords]
        cases outcome with
        | error e => exact ⟨[x], .stopped hleft hpending hnext hdealt⟩
        | ok _ =>
          obtain ⟨hcounted, hless⟩ := RecordReader.next_record hreader hnext
          obtain ⟨xs, htrace⟩ := ih (left.map (· - 1)) st₁ hcounted hrow₁ (by omega)
          exact ⟨x :: xs, .turn hleft hpending hnext hdealt htrace⟩
    · refine ⟨[], ?_⟩
      simp only [records, hleft, hpending, if_false]
      exact .interrupted hleft hpending

/-- What becomes of a record is determined. -/
theorem Dealt.unique {outcome' : Except LoadError Unit} {st₁ st₂ : State σ}
    (h : Dealt w rules x st outcome st₁) (h' : Dealt w rules x st outcome' st₂) :
    outcome = outcome' ∧ st₁ = st₂ :=
  Prod.ext_iff.mp ((dealt_iff.mp h).symm.trans (dealt_iff.mp h'))

/-- **A trace is what the loop does**, if it has fuel for one turn more
than there are records. -/
theorem Trace.records_eq (h : Trace w rules left reader st xs outcome st')
    (hrow : row.Shaped rules.schema.width) {fuel : Nat} (hfuel : xs.length < fuel) :
    records w rules fuel left reader row st = (outcome, st') := by
  induction h generalizing row fuel with
  | spent =>
    obtain ⟨fuel, rfl⟩ := Nat.exists_eq_add_one_of_ne_zero (Nat.ne_zero_of_lt hfuel)
    rw [records, if_pos rfl]
  | interrupted hleft pending =>
    obtain ⟨fuel, rfl⟩ := Nat.exists_eq_add_one_of_ne_zero (Nat.ne_zero_of_lt hfuel)
    rw [records, if_neg hleft, pending]
  | ended hleft calm next =>
    obtain ⟨fuel, rfl⟩ := Nat.exists_eq_add_one_of_ne_zero (Nat.ne_zero_of_lt hfuel)
    rw [records, if_neg hleft, calm]
    dsimp only
    rw [next]
  | unread hleft calm next =>
    obtain ⟨fuel, rfl⟩ := Nat.exists_eq_add_one_of_ne_zero (Nat.ne_zero_of_lt hfuel)
    rw [records, if_neg hleft, calm]
    dsimp only
    rw [next]
  | stopped hleft calm next dealt =>
    obtain ⟨fuel, rfl⟩ := Nat.exists_eq_add_one_of_ne_zero (Nat.ne_zero_of_lt hfuel)
    obtain ⟨outcome, st₁, row₁, hdealt, -, hrecords⟩ :=
      records_record (w := w) hleft calm next hrow fuel
    obtain ⟨rfl, rfl⟩ := hdealt.unique dealt
    exact hrecords
  | turn hleft calm next dealt _ ih =>
    obtain ⟨fuel, rfl⟩ := Nat.exists_eq_add_one_of_ne_zero (Nat.ne_zero_of_lt hfuel)
    obtain ⟨outcome, st₁, row₁, hdealt, hrow₁, hrecords⟩ :=
      records_record (w := w) hleft calm next hrow fuel
    obtain ⟨rfl, rfl⟩ := hdealt.unique dealt
    exact hrecords.trans (ih hrow₁ (Nat.lt_of_succ_lt_succ hfuel))

/-- So there is no other. -/
theorem Trace.unique {xs' : List Record} {outcome' : Except LoadError Unit} {st'' : State σ}
    (h : Trace w rules left reader st xs outcome st')
    (h' : Trace w rules left reader st xs' outcome' st'') : outcome = outcome' ∧ st' = st'' := by
  have hrow := Row.shaped_blank rules.schema.width
  have hfuel : xs.length < max xs.length xs'.length + 1 := by omega
  have hfuel' : xs'.length < max xs.length xs'.length + 1 := by omega
  have heq := h.records_eq hrow hfuel
  have heq' := h'.records_eq hrow hfuel'
  exact Prod.ext_iff.mp (heq.symm.trans heq')

/-- The fuel of a run is more than its reader has left. -/
theorem left_lt_bound {l : Loader} {source : Source}
    (hstart : RecordReader.start source l.options l.schema = .ok reader) :
    reader.left < bound source := by
  obtain ⟨-, hleft⟩ := RecordReader.start_ok hstart
  unfold bound
  cases source <;> (dsimp only at hleft ⊢; omega)

/-- A run that has passed over its records makes a trace. -/
theorem load_of_skip {l : Loader} {source : Source} {skipped : Nat}
    (hstart : RecordReader.start source l.options l.schema = .ok reader)
    (hpending : st.site.token.pending = none)
    (hskip : reader.skip l.options.skip = (.ok skipped, reader')) :
    ∃ xs outcome st', Trace w l.rules l.options.limit reader' st xs outcome st' ∧
      l.load w source st = (skipped, outcome, st') := by
  obtain ⟨hcounted, -⟩ := RecordReader.start_ok hstart
  obtain ⟨hcounted', hless⟩ := RecordReader.skip_ok hcounted hskip
  obtain ⟨xs, htrace⟩ := exists_trace w l.rules l.options.limit st hcounted'
    (Row.shaped_blank l.schema.width) (Nat.lt_of_le_of_lt hless (left_lt_bound hstart))
  exact ⟨xs, _, _, htrace, load_of_skip_ok hstart hpending hskip⟩

/-- A run whose reader starts either ends before the first record or makes
a trace. -/
theorem load_cases {l : Loader} {source : Source}
    (hstart : RecordReader.start source l.options l.schema = .ok reader) (st : State σ) :
    (∃ e, l.load w source st = (0, .error e, st)) ∨
      ∃ skipped reader' xs outcome st', st.site.token.pending = none ∧
        reader.skip l.options.skip = (.ok skipped, reader') ∧
        Trace w l.rules l.options.limit reader' st xs outcome st' ∧
        l.load w source st = (skipped, outcome, st') := by
  rcases hpending : st.site.token.pending with _ | kind
  · rcases hskip : reader.skip l.options.skip with ⟨e | skipped, reader'⟩
    · exact .inl ⟨e, load_of_skip_error hstart hpending (congrArg Prod.fst hskip)⟩
    · obtain ⟨xs, outcome, st', htrace, hload⟩ := load_of_skip (w := w) hstart hpending hskip
      exact .inr ⟨skipped, reader', xs, outcome, st', rfl, rfl, htrace, hload⟩
  · exact .inl ⟨.interrupted kind, load_of_pending hstart hpending⟩

/-- A trace after the records passed over is what the run does. -/
theorem load_of_trace {l : Loader} {source : Source} {skipped : Nat}
    (hstart : RecordReader.start source l.options l.schema = .ok reader)
    (hpending : st.site.token.pending = none)
    (hskip : reader.skip l.options.skip = (.ok skipped, reader'))
    (htrace : Trace w l.rules l.options.limit reader' st xs outcome st')
    (hfuel : xs.length < bound source) : l.load w source st = (skipped, outcome, st') := by
  rw [load_of_skip_ok hstart hpending hskip,
    htrace.records_eq (Row.shaped_blank l.schema.width) hfuel]

/-- A trace that comes to a good end without a limit has dealt with all
records. -/
theorem Trace.delivers (h : Trace w rules none reader st xs (.ok ()) st') :
    reader.Delivers xs (.ok ()) := by
  generalize hleft : (none : Option Nat) = left at h
  generalize houtcome : (Except.ok () : Except LoadError Unit) = outcome at h
  induction h with
  | spent => cases hleft
  | interrupted => cases houtcome
  | ended _ _ next => exact ⟨_, _, .nil _, next⟩
  | unread => cases houtcome
  | stopped => cases houtcome
  | turn _ _ next _ _ ih =>
    subst hleft
    obtain ⟨last, final, hyields, hend⟩ := ih rfl houtcome
    exact ⟨last, final, .cons next hyields, hend⟩

end Trace

/-! ## What a run gives to its writer -/

/-- The records that a run may have dealt with: some of those that come
first after the ones that it passes over. -/
def Attempts (l : Loader) (reader : RecordReader) (xs : List Record) : Prop :=
  xs = [] ∨ ∃ skipped reader' mid, reader.skip l.options.skip = (.ok skipped, reader') ∧
    reader'.Yields xs mid

section Given

variable {w : Writer σ}

/-- Closing a writer at the end gives it no row. -/
theorem given_finish {st st' : State (σ × List Call)} {outcome : Except LoadError Counts}
    (h : finish w.noting st = (outcome, st')) :
    Call.given st'.writer.2 = Call.given st.writer.2 := by
  rcases hclose : w.close st.writer.1 false (st.rejects.flush st.site).2 with ⟨last, x, site⟩
  cases (finish_of_close (Writer.noting_close hclose)).symm.trans h
  exact Call.given_closed ..

/-- Nor does closing it in error mode. -/
theorem given_abandon {st st' : State (σ × List Call)} {counts : Option Counts}
    (h : abandon w.noting st = (counts, st')) :
    Call.given st'.writer.2 = Call.given st.writer.2 := by
  rcases hclose : w.close st.writer.1 true (st.rejects.flush st.site).2 with ⟨last, x, site⟩
  cases (abandon_of_close (Writer.noting_close hclose)).symm.trans h
  exact Call.given_closed ..

/-- What a load gives to its writer are the rows of the accepted among the
records that it reads. -/
theorem load_given_of_start {l : Loader} {source : Source} {reader : RecordReader}
    (hstart : RecordReader.start source l.options l.schema = .ok reader) (w : Writer σ)
    (st : State (σ × List Call)) :
    ∃ xs, l.Attempts reader xs ∧ Call.given (l.load w.noting source st).2.2.writer.2
      = Call.given st.writer.2 ++ l.rules.acceptedRows xs := by
  rcases load_cases (w := w.noting) hstart st with
    ⟨e, hload⟩ | ⟨skipped, reader', xs, outcome, st', -, hskip, htrace, hload⟩
  · refine ⟨[], .inl rfl, ?_⟩
    rw [hload]
    exact (List.append_nil _).symm
  · obtain ⟨mid, hyields⟩ := htrace.yields
    refine ⟨xs, .inr ⟨skipped, reader', mid, hskip, hyields⟩, ?_⟩
    rw [hload]
    exact htrace.given

theorem load_given (l : Loader) (w : Writer σ) (source : Source) (st : State (σ × List Call)) :
    ∃ xs, Call.given (l.load w.noting source st).2.2.writer.2
      = Call.given st.writer.2 ++ l.rules.acceptedRows xs := by
  cases hstart : RecordReader.start source l.options l.schema with
  | error e =>
    refine ⟨[], ?_⟩
    rw [load_of_start_error hstart]
    exact (List.append_nil _).symm
  | ok reader =>
    obtain ⟨xs, -, hgiven⟩ := load_given_of_start hstart w st
    exact ⟨xs, hgiven⟩

/-- What a run gives to its writer it gives before it closes it. -/
theorem given_run (l : Loader) (w : Writer σ) (source : Source) (writer : σ) (calls : List Call)
    (s : Site) :
    Call.given (l.run w.noting source (writer, calls) s).2.1.2
      = Call.given (l.load w.noting source
          ⟨(writer, calls), l.rejects, l.observers (.started l.context) s⟩).2.2.writer.2 := by
  unfold run
  dsimp only
  rcases l.load w.noting source _ with ⟨skipped, e | _, st⟩
  · dsimp only
    exact given_abandon rfl
  · dsimp only
    rcases hfinish : finish w.noting st with ⟨e | counts, st'⟩
    · dsimp only
      exact (given_abandon rfl).trans (given_finish hfinish)
    · exact given_finish hfinish

/-- **However a run goes, what it gives to its writer are the rows of
accepted records.** -/
theorem run_given (l : Loader) (w : Writer σ) (source : Source) (writer : σ)
    (calls : List Call) (s : Site) :
    ∃ xs, Call.given (l.run w.noting source (writer, calls) s).2.1.2
      = Call.given calls ++ l.rules.acceptedRows xs := by
  obtain ⟨xs, hload⟩ :=
    l.load_given w source ⟨(writer, calls), l.rejects, l.observers (.started l.context) s⟩
  exact ⟨xs, (l.given_run w source writer calls s).trans hload⟩

end Given

end Loader
end Intake
