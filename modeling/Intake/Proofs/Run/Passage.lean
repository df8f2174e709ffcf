import Intake.Proofs.Run.Events
import Intake.Run.Disk
/-!
# The loop of a run on any disk

The loop of a run taken apart as on a disk that is sound: into the records
that it deals with and the way it ends (`Loader.Passage`). Now a record
may also end it because it cannot be kept.

Two things are followed through a passage, each by a lemma for one record.
Every rejected record is counted and told of, also the one that cannot be
kept (`Loader.Underway`). And the writer is given the rows of the accepted
records, until it refuses one (`Loader.Given`).
-/

namespace Intake

namespace Rejects

variable {disk : Disk} {r r' : Rejects} {s s' : Site} {outcome : Except LoadError Unit}

/-- Writing what waits changes nothing else. -/
theorem told_flushOn (h : r.flushOn disk s = (outcome, r', s')) :
    r'.count = r.count ∧ r'.context = r.context ∧ r'.observer = r.observer ∧
      s'.notes = s.notes := by
  unfold flushOn at h
  rcases disk.flush r.file s.directory with ⟨written, file, directory⟩
  cases h
  exact ⟨rfl, rfl, rfl, rfl⟩

/-- The account of one record more: it is counted and told of, also where
it cannot be kept. -/
theorem told_rejectOn {record : Nat} {raw : Bytes} {rejection : Rejection}
    (h : r.rejectOn disk record raw rejection s = (outcome, r', s')) :
    r'.count = r.count + 1 ∧ r'.context = r.context ∧ r'.observer = r.observer ∧
      ∀ name, r.observer.Notes name → s'.heard name
        = s.heard name ++ [.rejected r.context rejection.kind record rejection.message] := by
  have hheard := fun name (hname : r.observer.Notes name) =>
    hname (.rejected r.context rejection.kind record rejection.message)
      (s.warn (({ r with count := r.count + 1 } : Rejects).logText raw rejection.message))
  unfold rejectOn at h
  dsimp only at h
  generalize r.observer (.rejected r.context rejection.kind record rejection.message)
    (s.warn (({ r with count := r.count + 1 } : Rejects).logText raw rejection.message)) = told
    at h hheard
  generalize disk.append r.file raw told.directory = appended at h
  obtain ⟨_ | _, file, directory⟩ := appended
  · cases h
    exact ⟨rfl, rfl, rfl, hheard⟩
  dsimp only at h
  split at h
  · rcases hflush : ({ r with count := r.count + 1, file := file } : Rejects).flushOn disk
      { told with directory := directory } with ⟨_ | _, r₁, s₁⟩ <;>
    · obtain ⟨hcount, hcontext, hobserver, hnotes⟩ := told_flushOn hflush
      rw [hflush] at h
      cases h
      exact ⟨hcount, hcontext, hobserver, fun name hname =>
        (Site.heard_of_notes hnotes name).trans (hheard name hname)⟩
  · cases h
    exact ⟨rfl, rfl, rfl, hheard⟩

end Rejects

namespace Loader

variable {σ : Type}

/-! ## The loop -/

/-- What becomes of one record, in terms of the record by itself. -/
def dealOn (disk : Disk) (w : Writer σ) (rules : Rules) (x : Record) (st : State σ) :
    Except LoadError Unit × State σ :=
  let site := st.site.request (rules.judge x).requests
  match (rules.judge x).outcome with
  | .ok () =>
    match w.insert st.writer (rules.judge x).row x.raw site with
    | (outcome, writer, site) => (outcome.mapError .writer, ⟨writer, st.rejects, site⟩)
  | .error (.rejected rejection) =>
    match st.rejects.rejectOn disk x.number x.raw rejection site with
    | (outcome, rejects, site) => (outcome, { st with rejects := rejects, site := site })
  | .error (.fatal e) => (.error e, { st with site := site })

/-- The same as a relation, with a constructor for each thing that is done. -/
inductive DealtOn (disk : Disk) (w : Writer σ) (rules : Rules) (x : Record) (st : State σ) :
    Except LoadError Unit → State σ → Prop where
  /-- It is accepted, and its row is given to the writer. -/
  | accepted {outcome : Except WriterError Unit} {writer : σ} {site : Site}
      (judged : (rules.judge x).outcome = .ok ())
      (insert : w.insert st.writer (rules.judge x).row x.raw
        (st.site.request (rules.judge x).requests) = (outcome, writer, site)) :
    DealtOn disk w rules x st (outcome.mapError .writer) ⟨writer, st.rejects, site⟩
  /-- It is rejected. -/
  | rejected {rejection : Rejection} {outcome : Except LoadError Unit} {rejects : Rejects}
      {site : Site} (judged : (rules.judge x).outcome = .error (.rejected rejection))
      (reject : st.rejects.rejectOn disk x.number x.raw rejection
        (st.site.request (rules.judge x).requests) = (outcome, rejects, site)) :
    DealtOn disk w rules x st outcome { st with rejects := rejects, site := site }
  /-- The catalog has failed over it. -/
  | fatal {e : LoadError} (judged : (rules.judge x).outcome = .error (.fatal e)) :
    DealtOn disk w rules x st (.error e)
      { st with site := st.site.request (rules.judge x).requests }

theorem dealtOn_of_dealOn {disk : Disk} {w : Writer σ} {rules : Rules} {x : Record}
    {st st' : State σ} {outcome : Except LoadError Unit}
    (h : dealOn disk w rules x st = (outcome, st')) : DealtOn disk w rules x st outcome st' := by
  unfold dealOn at h
  rcases hjudged : (rules.judge x).outcome with (rejection | e) | _
  · simp only [hjudged] at h
    cases h
    exact .rejected hjudged rfl
  · simp only [hjudged] at h
    cases h
    exact .fatal hjudged
  · simp only [hjudged] at h
    cases h
    exact .accepted hjudged rfl

/-- The records that the loop deals with, how it ends, and its last state.
It deals well with all of them but the last. -/
inductive Passage (disk : Disk) (w : Writer σ) (rules : Rules) : Option Nat → RecordReader →
    State σ → List Record → Except LoadError Unit → State σ → Prop where
  /-- No more records are to be attempted. -/
  | spent {reader : RecordReader} {st : State σ} :
    Passage disk w rules (some 0) reader st [] (.ok ()) st
  | interrupted {left : Option Nat} {reader : RecordReader} {st : State σ} {kind : Interrupt}
      (hleft : left ≠ some 0) (pending : st.site.token.pending = some kind) :
    Passage disk w rules left reader st [] (.error (.interrupted kind)) st
  /-- The input has ended. -/
  | ended {left : Option Nat} {reader last : RecordReader} {st : State σ}
      (hleft : left ≠ some 0) (calm : st.site.token.pending = none)
      (next : reader.next = (.ok none, last)) : Passage disk w rules left reader st [] (.ok ()) st
  /-- The reader has failed. -/
  | unread {left : Option Nat} {reader last : RecordReader} {st : State σ} {e : LoadError}
      (hleft : left ≠ some 0) (calm : st.site.token.pending = none)
      (next : reader.next = (.error e, last)) :
    Passage disk w rules left reader st [] (.error e) st
  /-- A record has ended the loop. -/
  | stopped {left : Option Nat} {reader last : RecordReader} {st st' : State σ} {x : Record}
      {e : LoadError} (hleft : left ≠ some 0) (calm : st.site.token.pending = none)
      (next : reader.next = (.ok (some x), last))
      (deal : dealOn disk w rules x st = (.error e, st')) :
    Passage disk w rules left reader st [x] (.error e) st'
  | turn {left : Option Nat} {reader mid : RecordReader} {st st₁ st' : State σ} {x : Record}
      {xs : List Record} {outcome : Except LoadError Unit}
      (hleft : left ≠ some 0) (calm : st.site.token.pending = none)
      (next : reader.next = (.ok (some x), mid)) (deal : dealOn disk w rules x st = (.ok (), st₁))
      (rest : Passage disk w rules (left.map (· - 1)) mid st₁ xs outcome st') :
    Passage disk w rules left reader st (x :: xs) outcome st'

section Passage

variable {disk : Disk} {w : Writer σ} {rules : Rules} {left : Option Nat}
  {reader reader' : RecordReader} {row : Row} {st st' st'' : State σ} {x : Record}
  {xs ys : List Record} {outcome outcome' : Except LoadError Unit}

/-- The records of a passage come from its reader. -/
theorem Passage.yields (h : Passage disk w rules left reader st xs outcome st') :
    ∃ mid, reader.Yields xs mid := by
  induction h with
  | spent => exact ⟨_, .nil _⟩
  | interrupted => exact ⟨_, .nil _⟩
  | ended => exact ⟨_, .nil _⟩
  | unread => exact ⟨_, .nil _⟩
  | stopped _ _ next => exact ⟨_, .cons next (.nil _)⟩
  | turn _ _ next _ _ ih =>
    obtain ⟨last, hyields⟩ := ih
    exact ⟨last, .cons next hyields⟩

/-- There is one passage from a state. -/
theorem Passage.unique (h : Passage disk w rules left reader st xs outcome st')
    (h' : Passage disk w rules left reader st ys outcome' st'') :
    outcome = outcome' ∧ st' = st'' := by
  induction h generalizing ys with
  | spent =>
    cases h' with
    | spent => exact ⟨rfl, rfl⟩
    | _ hleft => exact absurd rfl hleft
  | interrupted hleft pending =>
    cases h' with
    | spent => exact absurd rfl hleft
    | interrupted _ pending' =>
      cases pending.symm.trans pending'
      exact ⟨rfl, rfl⟩
    | _ _ calm => cases pending.symm.trans calm
  | ended hleft calm next =>
    cases h' with
    | spent => exact absurd rfl hleft
    | interrupted _ pending => cases pending.symm.trans calm
    | ended => exact ⟨rfl, rfl⟩
    | unread _ _ next' => cases next.symm.trans next'
    | stopped _ _ next' => cases next.symm.trans next'
    | turn _ _ next' => cases next.symm.trans next'
  | unread hleft calm next =>
    cases h' with
    | spent => exact absurd rfl hleft
    | interrupted _ pending => cases pending.symm.trans calm
    | ended _ _ next' => cases next.symm.trans next'
    | unread _ _ next' =>
      cases next.symm.trans next'
      exact ⟨rfl, rfl⟩
    | stopped _ _ next' => cases next.symm.trans next'
    | turn _ _ next' => cases next.symm.trans next'
  | stopped hleft calm next deal =>
    cases h' with
    | spent => exact absurd rfl hleft
    | interrupted _ pending => cases pending.symm.trans calm
    | ended _ _ next' => cases next.symm.trans next'
    | unread _ _ next' => cases next.symm.trans next'
    | stopped _ _ next' deal' =>
      cases next.symm.trans next'
      cases deal.symm.trans deal'
      exact ⟨rfl, rfl⟩
    | turn _ _ next' deal' =>
      cases next.symm.trans next'
      cases deal.symm.trans deal'
  | turn hleft calm next deal _ ih =>
    cases h' with
    | spent => exact absurd rfl hleft
    | interrupted _ pending => cases pending.symm.trans calm
    | ended _ _ next' => cases next.symm.trans next'
    | unread _ _ next' => cases next.symm.trans next'
    | stopped _ _ next' deal' =>
      cases next.symm.trans next'
      cases deal.symm.trans deal'
    | turn _ _ next' deal' rest' =>
      cases next.symm.trans next'
      cases deal.symm.trans deal'
      exact ih rest'

/-- One record, in the row that it is converted into. -/
theorem recordsOn_record (disk : Disk) (hleft : left ≠ some 0)
    (hcalm : st.site.token.pending = none)
    (hnext : reader.next = (.ok (some x), reader')) (hrow : row.Shaped rules.schema.width)
    (fuel : Nat) :
    ∃ row₁ : Row, row₁.Shaped rules.schema.width ∧
      recordsOn disk w rules (fuel + 1) left reader row st
        = match dealOn disk w rules x st with
          | (.error e, st₁) => (.error e, st₁)
          | (.ok (), st₁) => recordsOn disk w rules fuel (left.map (· - 1)) reader' row₁ st₁ := by
  obtain ⟨houtcome, hrequests, hsame, hshaped, -⟩ := rules.attempt_of_shaped x hrow
  refine ⟨(rules.attempt x row).row, hshaped, ?_⟩
  rw [recordsOn, if_neg hleft, hcalm]
  dsimp only
  rw [hnext]
  dsimp only
  rw [houtcome, hrequests]
  rcases hjudged : (rules.judge x).outcome with (rejection | e) | _
  · rcases hreject : st.rejects.rejectOn disk x.number x.raw rejection
      (st.site.request (rules.judge x).requests) with ⟨_ | _, rejects, site⟩ <;>
    simp only [Rejects.absorbOn, dealOn, hjudged, hreject]
  · simp only [Rejects.absorbOn, dealOn, hjudged]
  · rw [hsame (houtcome.trans hjudged)]
    rcases hinsert : w.insert st.writer (rules.judge x).row x.raw
      (st.site.request (rules.judge x).requests) with ⟨_ | _, writer, site⟩ <;>
    simp only [Rejects.absorbOn, dealOn, hjudged, hinsert] <;> rfl

/-- **A loop with more fuel than its reader has bytes or rows left makes a
passage.** -/
theorem exists_passage (disk : Disk) (w : Writer σ) (rules : Rules) (left : Option Nat)
    (st : State σ) (hreader : reader.Counted) (hrow : row.Shaped rules.schema.width) {fuel : Nat}
    (hfuel : reader.left < fuel) :
    ∃ xs, Passage disk w rules left reader st xs
      (recordsOn disk w rules fuel left reader row st).1
      (recordsOn disk w rules fuel left reader row st).2 := by
  induction fuel generalizing left reader row st with
  | zero => cases hfuel
  | succ fuel ih =>
    by_cases hleft : left = some 0
    · subst hleft
      exact ⟨[], .spent⟩
    rcases hpending : st.site.token.pending with _ | kind
    · rcases hnext : reader.next with ⟨_ | _ | x, reader'⟩
      · refine ⟨[], ?_⟩
        simp only [recordsOn, hleft, hpending, hnext, if_false]
        exact .unread hleft hpending hnext
      · refine ⟨[], ?_⟩
        simp only [recordsOn, hleft, hpending, hnext, if_false]
        exact .ended hleft hpending hnext
      · obtain ⟨row₁, hrow₁, hrecords⟩ :=
          recordsOn_record (w := w) disk hleft hpending hnext hrow fuel
        rw [hrecords]
        rcases hdeal : dealOn disk w rules x st with ⟨_ | _, st₁⟩
        · exact ⟨[x], .stopped hleft hpending hnext hdeal⟩
        · obtain ⟨hcounted, hless⟩ := RecordReader.next_record hreader hnext
          obtain ⟨xs, hpassage⟩ := ih (left.map (· - 1)) st₁ hcounted hrow₁ (by omega)
          exact ⟨x :: xs, .turn hleft hpending hnext hdeal hpassage⟩
    · refine ⟨[], ?_⟩
      simp only [recordsOn, hleft, hpending, if_false]
      exact .interrupted hleft hpending

end Passage

/-! ## What is told of records, and which rows are given -/

/-- The account of a run that has dealt with some records, and what has been
told of them to each observer that notes what it hears. -/
structure Underway (l : Loader) (w : Writer σ) (s : Site) (xs : List Record)
    (st : State (σ × List Call)) : Prop where
  count : st.rejects.count = (l.rules.rejected xs).length
  context : st.rejects.context = l.context
  observer : st.rejects.observer = l.observers
  heard : w.Quiet → ∀ name, l.observer.Notes name →
    st.site.heard name = s.heard name ++ .started l.context :: l.rules.rejections l.context xs

/-- What a writer was asked until the loop ended: it has taken all the rows
that it was given, or refused the last. -/
inductive Given (rows : List Entry) : Except LoadError Unit → List Call → Prop where
  | taken {outcome : Except LoadError Unit} : Given rows outcome (Call.taken rows)
  | refused {before : List Entry} {entry : Entry} {e : WriterError}
      (rows_eq : rows = before ++ [entry]) :
    Given rows (.error (.writer e)) (Call.taken before ++ [.insert entry (.error e)])

section Records

variable {l : Loader} {disk : Disk} {w : Writer σ} {s : Site} {xs ys : List Record} {x : Record}
  {rules : Rules} {left : Option Nat} {reader : RecordReader} {st st' : State (σ × List Call)}
  {outcome : Except LoadError Unit}

theorem underway_start (l : Loader) (w : Writer σ) (s : Site) (writer : σ × List Call) :
    l.Underway w s [] ⟨writer, l.rejects, l.observers (.started l.context) s⟩ :=
  ⟨rfl, rfl, rfl, fun _ _ h => notes_observers h _ s⟩

/-- **One record more**, whatever becomes of it. -/
theorem Underway.deal (h : l.Underway w s xs st)
    (hdeal : dealOn disk w.noting l.rules x st = (outcome, st')) :
    l.Underway w s (xs ++ [x]) st' := by
  obtain ⟨hcount, hcontext, hobserver, hheard⟩ := h
  cases dealtOn_of_dealOn hdeal with
  | accepted judged insert =>
    refine ⟨?_, hcontext, hobserver, fun hw name hname => ?_⟩
    · rw [Rules.rejected_concat]
      simp [Rules.rejects, judged, hcount]
    · have hquiet := hw.noting.insert st.writer (l.rules.judge x).row x.raw
        (st.site.request (l.rules.judge x).requests)
      rw [insert] at hquiet
      rw [Rules.rejections_concat]
      simp only [Rules.rejection?, judged, Option.toList_none, List.append_nil]
      exact (Site.heard_of_notes hquiet name).trans (hheard hw name hname)
  | rejected judged reject =>
    obtain ⟨hcount', hcontext', hobserver', hheard'⟩ := Rejects.told_rejectOn reject
    refine ⟨?_, hcontext'.trans hcontext, hobserver'.trans hobserver, fun hw name hname => ?_⟩
    · rw [Rules.rejected_concat]
      simp [Rules.rejects, judged, hcount', hcount]
    · rw [Rules.rejections_concat]
      simp only [Rules.rejection?, judged, Option.toList_some]
      have hsame : (st.site.request (l.rules.judge x).requests).heard name
          = st.site.heard name := rfl
      rw [hheard' name (hobserver ▸ notes_observers hname), hsame, hheard hw name hname, hcontext,
        List.append_assoc]
      rfl
  | fatal judged =>
    refine ⟨?_, hcontext, hobserver, fun hw name hname => ?_⟩
    · rw [Rules.rejected_concat]
      simp [Rules.rejects, judged, hcount]
    · rw [Rules.rejections_concat]
      simp only [Rules.rejection?, judged, Option.toList_none, List.append_nil]
      exact hheard hw name hname

/-- **All records of a passage**, however it ends. -/
theorem Underway.passage (h : l.Underway w s xs st)
    (hpassage : Passage disk w.noting l.rules left reader st ys outcome st') :
    l.Underway w s (xs ++ ys) st' := by
  induction hpassage generalizing xs with
  | spent => exact (List.append_nil xs).symm ▸ h
  | interrupted => exact (List.append_nil xs).symm ▸ h
  | ended => exact (List.append_nil xs).symm ▸ h
  | unread => exact (List.append_nil xs).symm ▸ h
  | stopped _ _ _ deal => exact h.deal deal
  | turn _ _ _ deal _ ih =>
    rw [List.append_cons]
    exact ih (h.deal deal)

/-- A record that is accepted is given to the writer, and no other. -/
theorem calls_dealOn (h : dealOn disk w.noting rules x st = (outcome, st')) :
    st'.writer.2 = st.writer.2 ++ Call.taken (rules.acceptedRows [x]) ∨
      ∃ entry e, rules.acceptedRows [x] = [entry] ∧ outcome = .error (.writer e) ∧
        st'.writer.2 = st.writer.2 ++ [.insert entry (.error e)] := by
  cases dealtOn_of_dealOn h with
  | @accepted answer writer site judged insert =>
    have haccepts : rules.accepts x = true := by simp only [Rules.accepts, judged]
    rcases hinsert : w.insert st.writer.1 (rules.judge x).row x.raw
      (st.site.request (rules.judge x).requests) with ⟨answer', writer', site'⟩
    cases insert.symm.trans (Writer.noting_insert hinsert)
    rw [Rules.acceptedRows, List.filter_cons_of_pos haccepts]
    cases answer with
    | ok _ => exact .inl rfl
    | error e => exact .inr ⟨_, e, rfl, rfl, rfl⟩
  | rejected judged reject =>
    have haccepts : ¬ rules.accepts x = true := by simp [Rules.accepts, judged]
    rw [Rules.acceptedRows, List.filter_cons_of_neg haccepts]
    exact .inl (List.append_nil _).symm
  | fatal judged =>
    have haccepts : ¬ rules.accepts x = true := by simp [Rules.accepts, judged]
    rw [Rules.acceptedRows, List.filter_cons_of_neg haccepts]
    exact .inl (List.append_nil _).symm

/-- **The writer is given the rows of the accepted records**, in their order,
until it refuses one. -/
theorem Passage.given {given : List Entry}
    (h : Passage disk w.noting rules left reader st xs outcome st')
    (hcalls : st.writer.2 = Call.taken given) :
    Given (given ++ rules.acceptedRows xs) outcome st'.writer.2 := by
  induction h generalizing given with
  | spent => rw [hcalls]; exact (List.append_nil given).symm ▸ .taken
  | interrupted => rw [hcalls]; exact (List.append_nil given).symm ▸ .taken
  | ended => rw [hcalls]; exact (List.append_nil given).symm ▸ .taken
  | unread => rw [hcalls]; exact (List.append_nil given).symm ▸ .taken
  | stopped _ _ _ deal =>
    rcases calls_dealOn deal with hmore | ⟨entry, e, hentry, houtcome, hmore⟩
    · rw [hmore, hcalls, ← Call.taken_append]
      exact .taken
    · cases houtcome
      rw [hmore, hcalls, hentry]
      exact .refused rfl
  | @turn _ _ _ _ _ _ x xs _ _ _ _ deal _ ih =>
    rcases calls_dealOn deal with hmore | ⟨_, _, _, houtcome, _⟩
    · rw [← List.singleton_append, Rules.acceptedRows_append, ← List.append_assoc]
      refine ih ?_
      rw [hmore, hcalls, ← Call.taken_append]
    · cases houtcome

end Records

end Loader
end Intake
