import Mathlib.Data.List.Forall2
import Intake.Proofs.Run.Replay
import Intake.Proofs.Run.Window
/-!
# Runs over records that are all taken

A run over records of which each is taken as a row, and asks for nothing,
has only its writer to deal with. What it does is handing rows over, one
after another (`Loader.hand`), whatever the writer answers and whoever
asks the run to stop; the account of rejected records stays as it was
(`Loader.HandsOver`).

So nothing is rejected, and the writer is given the rows in their order:
all of them if the run succeeds, and the first of them if it does not
(`Loader.Transferred`).
-/

namespace Intake

/-- A record that is taken as a row, and asks for nothing. -/
structure Rules.Takes (r : Rules) (x : Record) (entry : Entry) : Prop where
  judge_eq : r.judge x = { outcome := .ok (), row := entry.1 }
  raw_eq : x.raw = entry.2

/-- A writer that takes every row in some states, and stays in them, and
asks nobody to stop. -/
structure Writer.Willing {σ : Type} (w : Writer σ) (accepting : σ → Prop) : Prop where
  insert : ∀ {st s}, accepting st → s.token.pending = none → ∀ row raw,
    ∃ st' s', w.insert st row raw s = (.ok (), st', s') ∧ accepting st' ∧ s'.token.pending = none

namespace Loader

variable {σ : Type}

/-- Handing rows to a writer, one after another, until it fails or the run
is asked to stop; `stop` is the outcome behind the last of them. -/
def hand (w : Writer σ) (stop : Except LoadError Unit) (entries : List Entry) (x : σ) (s : Site) :
    Except LoadError Unit × σ × Site :=
  match s.token.pending with
  | some kind => (.error (.interrupted kind), x, s)
  | none =>
    match entries with
    | [] => (stop, x, s)
    | entry :: entries =>
      match w.insert x entry.1 entry.2 s with
      | (.error e, x, s) => (.error (.writer e), x, s)
      | (.ok (), x, s) => hand w stop entries x s

/-- A source whose load hands some rows over, and does nothing else. -/
def HandsOver (l : Loader) (source : Source) (stop : Except LoadError Unit)
    (entries : List Entry) : Prop :=
  ∀ {σ : Type} (w : Writer σ) (st : State σ), l.load w source st
    = match hand w stop entries st.writer st.site with
      | (outcome, writer, site) => (0, outcome, ⟨writer, st.rejects, site⟩)

section Hand

variable {w : Writer σ} {stop : Except LoadError Unit} {entries : List Entry} {entry : Entry}
  {s : Site}

theorem hand_of_pending {kind : Interrupt} (h : s.token.pending = some kind) (x : σ) :
    hand w stop entries x s = (.error (.interrupted kind), x, s) := by
  unfold hand
  rw [h]

theorem hand_nil (h : s.token.pending = none) (x : σ) : hand w stop [] x s = (stop, x, s) := by
  unfold hand
  rw [h]

theorem hand_cons (h : s.token.pending = none) (x : σ) :
    hand w stop (entry :: entries) x s
      = match w.insert x entry.1 entry.2 s with
        | (.error e, x, s) => (.error (.writer e), x, s)
        | (.ok (), x, s) => hand w stop entries x s := by
  rw [hand, h]

/-- **The writer is given the first of the rows**, and all of them unless
something goes wrong. -/
theorem hand_given (w : Writer σ) (stop : Except LoadError Unit) (entries : List Entry)
    (x : σ × List Call) (s : Site) :
    ∃ before, before <+: entries ∧
      Call.given (hand w.noting stop entries x s).2.1.2 = Call.given x.2 ++ before ∧
      ((hand w.noting stop entries x s).1 = .ok () → stop = .ok () ∧ before = entries) := by
  induction entries generalizing x s with
  | nil =>
    refine ⟨[], List.nil_prefix, ?_⟩
    cases hpending : s.token.pending with
    | some kind =>
      rw [hand_of_pending hpending]
      exact ⟨(List.append_nil _).symm, nofun⟩
    | none =>
      rw [hand_nil hpending]
      exact ⟨(List.append_nil _).symm, fun hstop => ⟨hstop, rfl⟩⟩
  | cons entry entries ih =>
    cases hpending : s.token.pending with
    | some kind =>
      rw [hand_of_pending hpending]
      exact ⟨[], List.nil_prefix, (List.append_nil _).symm, nofun⟩
    | none =>
      rw [hand_cons hpending]
      rcases hinsert : w.insert x.1 entry.1 entry.2 s with ⟨e | _, st, s'⟩
      · rw [Writer.noting_insert hinsert]
        exact ⟨[entry], List.prefix_append [entry] entries, Call.given_append .., nofun⟩
      · rw [Writer.noting_insert hinsert]
        dsimp only
        obtain ⟨before, hbefore, hgiven, hwhole⟩ :=
          ih (st, x.2 ++ [.insert (entry.1, entry.2) (.ok ())]) s'
        refine ⟨entry :: before, List.cons_prefix_cons.mpr ⟨rfl, hbefore⟩, ?_,
          fun hok => (hwhole hok).imp_right (congrArg (entry :: ·))⟩
        rw [hgiven, Call.given_append, List.append_assoc]
        rfl

/-- A willing writer takes them all. -/
theorem hand_willing {accepting : σ → Prop} (hw : w.Willing accepting)
    (stop : Except LoadError Unit) (entries : List Entry) {x : σ × List Call}
    (hx : accepting x.1) (hs : s.token.pending = none) :
    ∃ st s', hand w.noting stop entries x s = (stop, (st, x.2 ++ Call.taken entries), s') := by
  induction entries generalizing x s with
  | nil => exact ⟨x.1, s, by rw [hand_nil hs, Call.taken, List.map_nil, List.append_nil]⟩
  | cons entry entries ih =>
    obtain ⟨st, s', hinsert, hst, hs'⟩ := hw.insert hx hs entry.1 entry.2
    obtain ⟨last, s'', hrest⟩ := ih (x := (st, x.2 ++ [.insert entry (.ok ())])) hst hs'
    refine ⟨last, s'', ?_⟩
    rw [hand_cons hs, Writer.noting_insert hinsert]
    dsimp only
    rw [hrest, List.append_assoc]
    rfl

end Hand

/-! ## The loop -/

section Records

variable {w : Writer σ} {rules : Rules} {reader : RecordReader} {row : Row} {xs : List Record}
  {x : Record} {entries : List Entry} {entry : Entry} {stop : Except LoadError Unit}

/-- A record that is taken goes to the writer, and does nothing else. -/
theorem deal_of_takes (h : rules.Takes x entry) (st : State σ) :
    deal w rules x st
      = match w.insert st.writer entry.1 entry.2 st.site with
        | (outcome, writer, site) => (outcome.mapError .writer, ⟨writer, st.rejects, site⟩) := by
  unfold deal
  rw [h.judge_eq, h.raw_eq]
  rfl

/-- The loop with such a record before it. -/
theorem records_of_takes {reader' : RecordReader} {st : State σ} (htakes : rules.Takes x entry)
    (hcalm : st.site.token.pending = none) (hnext : reader.next = (.ok (some x), reader'))
    (hrow : row.Shaped rules.schema.width) (fuel : Nat) :
    ∃ row₁ : Row, row₁.Shaped rules.schema.width ∧ records w rules (fuel + 1) none reader row st
      = match w.insert st.writer entry.1 entry.2 st.site with
        | (.error e, writer, site) => (.error (.writer e), ⟨writer, st.rejects, site⟩)
        | (.ok (), writer, site) =>
          records w rules fuel none reader' row₁ ⟨writer, st.rejects, site⟩ := by
  have hunlimited : (none : Option Nat) ≠ some 0 := nofun
  obtain ⟨outcome, st₁, row₁, hdealt, hrow₁, hrecords⟩ :=
    records_record (w := w) hunlimited hcalm hnext hrow fuel
  have hdeal := (deal_of_takes (w := w) htakes st).symm.trans (dealt_iff.mp hdealt)
  refine ⟨row₁, hrow₁, hrecords.trans ?_⟩
  rcases hinsert : w.insert st.writer entry.1 entry.2 st.site with ⟨e | _, writer, site⟩ <;>
  · rw [hinsert] at hdeal
    cases hdeal
    rfl

/-- **The loop hands the rows over**, by induction on the records. -/
theorem records_eq_hand (htakes : List.Forall₂ rules.Takes xs entries)
    (hdelivers : reader.Delivers xs stop) (hrow : row.Shaped rules.schema.width) {fuel : Nat}
    (hfuel : xs.length < fuel) (st : State σ) :
    records w rules fuel none reader row st
      = match hand w stop entries st.writer st.site with
        | (outcome, writer, site) => (outcome, ⟨writer, st.rejects, site⟩) := by
  have hunlimited : (none : Option Nat) ≠ some 0 := nofun
  induction htakes generalizing reader row fuel st with
  | nil =>
    obtain ⟨fuel, rfl⟩ := Nat.exists_eq_add_one_of_ne_zero (Nat.ne_zero_of_lt hfuel)
    cases hpending : st.site.token.pending with
    | some kind => rw [records, if_neg hunlimited, hpending, hand_of_pending hpending]
    | none =>
      obtain ⟨last, hnext⟩ := RecordReader.delivers_nil hdelivers
      rw [records, if_neg hunlimited, hpending, hand_nil hpending]
      dsimp only
      rw [hnext]
      cases stop <;> rfl
  | @cons x entry xs entries htakes _ ih =>
    obtain ⟨fuel, rfl⟩ := Nat.exists_eq_add_one_of_ne_zero (Nat.ne_zero_of_lt hfuel)
    cases hpending : st.site.token.pending with
    | some kind => rw [records, if_neg hunlimited, hpending, hand_of_pending hpending]
    | none =>
      obtain ⟨mid, hnext, hrest⟩ := RecordReader.delivers_cons hdelivers
      obtain ⟨row₁, hrow₁, hrecords⟩ :=
        records_of_takes (w := w) htakes hpending hnext hrow fuel
      rw [hrecords, hand_cons hpending]
      rcases w.insert st.writer entry.1 entry.2 st.site with ⟨e | _, writer, site⟩
      · rfl
      · exact ih hrest hrow₁ (Nat.lt_of_succ_lt_succ hfuel) ⟨writer, st.rejects, site⟩

/-- **A load of records that are all taken hands the rows over.** -/
theorem handsOver {l : Loader} {source : Source} (hlimit : l.options.limit = none)
    (hstart : RecordReader.start source l.options l.schema = .ok reader)
    (hskip : reader.skip l.options.skip = (.ok 0, reader))
    (htakes : List.Forall₂ l.rules.Takes xs entries) (hdelivers : reader.Delivers xs stop) :
    l.HandsOver source stop entries := by
  intro σ w st
  cases hpending : st.site.token.pending with
  | some kind => rw [load_of_pending hstart hpending, hand_of_pending hpending]
  | none =>
    have hrecords := records_eq_hand (w := w) htakes hdelivers (Row.shaped_blank l.schema.width)
      (length_lt_bound hstart hdelivers) st
    rw [load_of_skip_ok hstart hpending hskip, hlimit, hrecords]

end Records

/-! ## The run around it -/

/-- What comes of a run that hands some rows over. -/
structure Transferred (entries : List Entry)
    (out : Except LoadFailure Summary × (σ × List Call) × Site) : Prop where
  /-- No record is rejected. -/
  rejected : (countsOf out.1).parseRejected = 0
  /-- The writer is given the rows in their order, -/
  given : Call.given out.2.1.2 <+: entries
  /-- and all of them if the run succeeds. -/
  whole : ∀ summary, out.1 = .ok summary → Call.given out.2.1.2 = entries

section Run

variable {l : Loader} {w : Writer σ} {source : Source} {writer : σ × List Call} {s : Site}
  {skipped : Nat} {outcome : Except LoadError Unit} {st : State (σ × List Call)}
  {entries : List Entry} {stop : Except LoadError Unit}

/-- After its load a run gives nothing more to its writer and rejects
nothing more, and it cannot succeed if the load has failed. -/
theorem run_of_load
    (hload : l.load w.noting source ⟨writer, l.rejects, l.observers (.started l.context) s⟩
      = (skipped, outcome, st)) :
    (countsOf (l.run w.noting source writer s).1).parseRejected = st.rejects.count ∧
      Call.given (l.run w.noting source writer s).2.1.2 = Call.given st.writer.2 ∧
      ∀ summary, (l.run w.noting source writer s).1 = .ok summary → outcome = .ok () := by
  unfold run
  dsimp only
  rw [hload]
  dsimp only
  cases outcome with
  | error e =>
    dsimp only
    rcases habandon : abandon w.noting st with ⟨_ | counts, st'⟩ <;>
      exact ⟨rfl, given_abandon habandon, nofun⟩
  | ok _ =>
    dsimp only
    rcases hfinish : finish w.noting st with ⟨e | counts, st'⟩
    · dsimp only
      rcases habandon : abandon w.noting st' with ⟨_ | counts, st''⟩ <;>
        exact ⟨rfl, (given_abandon habandon).trans (given_finish hfinish), fun _ _ => rfl⟩
    · exact ⟨rfl, given_finish hfinish, fun _ _ => rfl⟩

/-- A run that has handed its rows over and has not failed over that. -/
theorem completed_of_load
    (hload : l.load w.noting source ⟨writer, l.rejects, l.observers (.started l.context) s⟩
      = (skipped, .ok (), st)) (hcalls : st.writer.2 = Call.taken entries) :
    Completed (counted skipped st.rejects.count) entries (l.run w.noting source writer s).1
      (l.run w.noting source writer s).2.1.2 := by
  rcases hclose : w.close st.writer.1 false (st.rejects.flush st.site).2 with ⟨e | counts, x, site⟩
  · have hfinish := finish_of_close (Writer.noting_close hclose)
    rcases hagain : w.close x true ((st.rejects.flush st.site).1.flush site).2 with
      ⟨last, x', site'⟩
    have habandon : abandon w.noting ⟨(x, st.writer.2 ++ [.close false (.error e)]),
        (st.rejects.flush st.site).1, site⟩ = _ := abandon_of_close (Writer.noting_close hagain)
    rw [run_of_abandon hload (.inr ⟨rfl, hfinish⟩) habandon, hcalls]
    dsimp only
    rw [List.append_assoc]
    exact .unclosed e last
  · rw [run_of_finish hload (finish_of_close (Writer.noting_close hclose)), hcalls]
    exact .closed counts

/-- **A run that hands rows over** rejects none, and gives them to its
writer in their order. If it does not stop short, they are all that there
are. -/
theorem HandsOver.transferred {part : List Entry} (h : l.HandsOver source stop part)
    (hpart : part <+: entries) (hwhole : stop = .ok () → part = entries) (w : Writer σ)
    (writer : σ) (s : Site) : Transferred entries (l.run w.noting source (writer, []) s) := by
  obtain ⟨before, hbefore, hgiven, hall⟩ :=
    hand_given w stop part (writer, []) (l.observers (.started l.context) s)
  obtain ⟨hcounted, hsame, hsuccess⟩ := run_of_load
    (h w.noting ⟨(writer, []), l.rejects, l.observers (.started l.context) s⟩)
  have hrun := hsame.trans hgiven
  refine ⟨hcounted, hrun ▸ hbefore.trans hpart, fun summary hok => ?_⟩
  obtain ⟨hstop, hsent⟩ := hall (hsuccess summary hok)
  rw [← hwhole hstop, ← hsent]
  exact hrun

/-- If nothing goes wrong behind the rows either and nobody asks the run to
stop, a willing writer takes all of them and is closed. -/
theorem HandsOver.completed (h : l.HandsOver source (.ok ()) entries) {accepting : σ → Prop}
    (hw : w.Willing accepting) {x : σ} (hx : accepting x)
    (hcalm : (l.observers (.started l.context) s).token.pending = none) :
    Completed (counted 0 0) entries (l.run w.noting source (x, []) s).1
      (l.run w.noting source (x, []) s).2.1.2 := by
  have hload := h w.noting ⟨(x, []), l.rejects, l.observers (.started l.context) s⟩
  obtain ⟨last, site, hhand⟩ := hand_willing hw (.ok ()) entries (x := (x, [])) hx hcalm
  rw [hhand] at hload
  exact completed_of_load hload rfl

end Run

end Loader
end Intake
