import Intake.Proofs.Writer.Tally
/-!
# Accounts that balance

Two laws of conservation. Of rows: those that a table has in the end and
those that have given their place up are together the rows that it had
before and those that were not left out (`Table.Course.perm_rows`). Of
counts: with each row that a writer takes the sum of its counts and of
the rows that wait goes up by one, whether or not a batch is stored
(`LocalWriter.insert_total`), and closing leaves it as it is
(`LocalWriter.close_total`).

The second law is about numbers alone. It says what the tally of outcomes
does not: a row that is refused as an error is not taken, since the call
that finds it out fails.
-/

namespace Intake

open scoped List

/-! ## Rows -/

namespace Outcome

/-- The stored row whose place the new one took. -/
def old? : Outcome → Option Row
  | replaced _ old => some old
  | _ => none

end Outcome

namespace Table

/-- The stored rows that gave their places up. -/
def replaced (past : List (Row × Outcome)) : List Row := past.filterMap fun p => p.2.old?

/-- The rows that were not left out. -/
def stored (past : List (Row × Outcome)) : List Row :=
  (past.filter fun p => !p.2.isDiscard).map Prod.fst

/-- **No row comes from nowhere and none is lost.** -/
theorem Course.perm_rows {keep : Keep} {t t' : Table} {past : List (Row × Outcome)}
    (h : Course keep t past t') : t'.rows ++ replaced past ~ t.rows ++ stored past := by
  induction h with
  | nil => exact .refl _
  | @cons t mid t' row outcome past first _ ih =>
    cases first with
    | gained _ rows =>
      rw [rows, List.append_assoc] at ih
      exact ih
    | kept => exact ih
    | @replaced _ front back old _ _ _ _ before rows =>
      rw [rows, List.append_assoc] at ih
      rw [before]
      calc t'.rows ++ old :: replaced past
        _ ~ old :: (t'.rows ++ replaced past) := List.perm_middle
        _ ~ old :: (front ++ row :: (back ++ stored past)) := ih.cons old
        _ ~ old :: row :: (front ++ (back ++ stored past)) := List.perm_middle.cons old
        _ ~ row :: old :: (front ++ (back ++ stored past)) := .swap ..
        _ ~ row :: (front ++ old :: (back ++ stored past)) := (List.perm_middle.cons row).symm
        _ = row :: ((front ++ old :: back) ++ stored past) := by rw [List.append_assoc]; rfl
        _ ~ (front ++ old :: back) ++ row :: stored past := List.perm_middle.symm

end Table

/-! ## Counts -/

/-- How many rows some counts speak of. -/
def Counts.total (c : Counts) : Nat := c.inserted + c.duplicateNew + c.duplicateOld

theorem Counts.total_plus (c c' : Counts) : (c.plus c').total = c.total + c'.total := by
  simp only [total, plus]
  omega

namespace Duplicates

/-- **An outcome that is put up with is counted once.** -/
theorem record_total {t : Duplicates} {outcome : Outcome} {raw : Bytes} {s : Site}
    (h : (t.record outcome raw s).1 = .ok ()) :
    (t.record outcome raw s).2.1.counts.total = t.counts.total + 1 := by
  obtain ⟨-, hcounts⟩ := t.record_eq outcome raw s
  have hone : (Counts.tally t.policy [outcome]).total = 1 := by
    cases outcome with
    | inserted =>
      simp [Counts.total, Counts.tally, Outcome.isGain, Outcome.isDiscard, Outcome.isReplacement]
    | replaced =>
      simp [Counts.total, Counts.tally, Outcome.isGain, Outcome.isDiscard, Outcome.isReplacement]
    | discarded key =>
      have hpolicy : t.policy ≠ .error := by
        intro herror
        rw [record, if_pos herror] at h
        cases h
      simp [Counts.total, Counts.tally, Outcome.isGain, Outcome.isDiscard, Outcome.isReplacement,
        hpolicy]
  rw [hcounts, Counts.total_plus, hone]

end Duplicates

namespace LocalWriter

/-- The rows that a writer has taken: those it has counted and those that
wait for their batch. -/
def total (w : LocalWriter) : Nat := w.duplicates.counts.total + w.pending.length

theorem recordAll_total {t : Duplicates} {s : Site} {outcomes : List (Outcome × Bytes)}
    (h : (recordAll t s outcomes).1 = .ok ()) :
    (recordAll t s outcomes).2.1.counts.total = t.counts.total + outcomes.length := by
  induction outcomes generalizing t s with
  | nil => rfl
  | cons first outcomes ih =>
    obtain ⟨outcome, raw⟩ := first
    have hone := @Duplicates.record_total t outcome raw s
    rw [recordAll] at h ⊢
    rcases hrecord : t.record outcome raw s with ⟨_ | _, t₁, s₁⟩
    · rw [hrecord] at h
      cases h
    · rw [hrecord] at h hone
      dsimp only at h hone ⊢
      rw [ih h, hone rfl, List.length_cons]
      omega

section Calls

variable {w w' : LocalWriter} {s s' : Site}

/-- A batch that is stored moves its rows to the counts. -/
theorem flush_total (h : w.flush s = (.ok (), w', s')) :
    w'.total = w.total ∧ w'.pending = [] ∧ w'.closed = w.closed := by
  rw [flush_eq] at h
  split at h
  · next hempty =>
    cases h
    exact ⟨rfl, List.isEmpty_iff.mp hempty, rfl⟩
  rcases hinsert : w.storage.insertAll w.duplicates.keep s.directory (w.pending.map Prod.fst) with
    ⟨_ | outcomes, x', d'⟩
  · rw [hinsert] at h
    cases h
  · have hlength := Storage.length_insertAll hinsert
    have hrecorded := @recordAll_total w.duplicates { s with directory := d' }
      (outcomes.zip (w.pending.map Prod.snd))
    rw [hinsert] at h
    dsimp only at h
    generalize recordAll _ _ _ = recorded at h hrecorded
    obtain ⟨outcome, duplicates, s''⟩ := recorded
    cases h
    refine ⟨?_, rfl, rfl⟩
    show duplicates.counts.total + 0 = w.duplicates.counts.total + w.pending.length
    rw [Nat.add_zero, hrecorded rfl, List.length_zip, hlength, List.length_map, List.length_map,
      Nat.min_self]

/-- **A row that is taken is counted, or waits.** -/
theorem insert_total {row : Row} {raw : Bytes} (h : w.insert row raw s = (.ok (), w', s')) :
    w'.total = w.total + 1 ∧ w'.closed = w.closed := by
  unfold LocalWriter.insert at h
  split at h
  · cases h
  split at h
  · unfold insertDirect at h
    rcases hinsert : w.storage.insert row w.duplicates.keep s.directory with
      ⟨_ | outcome, x', d'⟩ <;> rw [hinsert] at h
    · cases h
    · have hone := @Duplicates.record_total w.duplicates outcome raw { s with directory := d' }
      dsimp only at h
      generalize w.duplicates.record _ _ _ = recorded at h hone
      obtain ⟨result, duplicates, s''⟩ := recorded
      cases h
      refine ⟨?_, rfl⟩
      show duplicates.counts.total + w.pending.length = _
      rw [hone rfl, total]
      omega
  · have hmore : (w.hold row raw).total = w.total + 1 := by
      rw [total, pending_hold, List.length_append]
      rfl
    dsimp only at h
    split at h
    · obtain ⟨htotal, -, hclosed⟩ := flush_total h
      exact ⟨htotal.trans hmore, hclosed⟩
    · cases h
      exact ⟨hmore, rfl⟩

/-- **Closing reports all that was taken.** -/
theorem close_total {counts : Counts} (hopen : w.closed = false)
    (h : w.close false s = (.ok counts, w', s')) : counts.total = w.total := by
  unfold LocalWriter.close at h
  rw [if_neg (by rw [hopen]; exact Bool.false_ne_true)] at h
  simp only [Bool.false_eq_true, if_false] at h
  rcases hflush : ({ w with closed := true } : LocalWriter).flush s with ⟨_ | _, w₁, s₁⟩
  · rw [hflush] at h
    cases h
  · obtain ⟨htotal, hpending, -⟩ := flush_total hflush
    rw [hflush] at h
    dsimp only at h
    unfold LocalWriter.finish at h
    rcases hfinish : w₁.storage.finish s₁.directory with ⟨_ | _, x', d'⟩ <;> rw [hfinish] at h
    · cases h
    · cases h
      show w₁.duplicates.counts.total = w.total
      have hsame : w₁.total = w.total := htotal
      rw [← hsame, LocalWriter.total, hpending]
      rfl

/-- A level writer that closes well has stored all of its rows. -/
theorem Level.closed {start : LocalWriter} {t : Table} {rows : List Row}
    {past : List (Row × Outcome)} {counts : Counts} (hlevel : Level start t rows w past)
    (hopen : w.closed = false) (h : w.close false s = (.ok counts, w', s')) :
    ∃ past', Ledger start t rows w' past' [] ∧ past'.map Prod.fst = rows ∧
      counts = w'.duplicates.counts := by
  unfold LocalWriter.close at h
  rw [if_neg (by rw [hopen]; exact Bool.false_ne_true)] at h
  simp only [Bool.false_eq_true, if_false] at h
  have hledger : Ledger start t rows { w with closed := true } past [] :=
    ⟨hlevel.policy, hlevel.batch, hlevel.table, hlevel.given, hlevel.counts, hlevel.few⟩
  obtain ⟨-, hstored, -⟩ := hledger.flush s hlevel.waiting (Nat.le_of_lt hlevel.unfilled)
  generalize ({ w with closed := true } : LocalWriter).flush s = flushed at h hstored
  obtain ⟨_ | _, w₁, s₁⟩ := flushed
  · cases h
  · obtain ⟨past', hlevel', hpending⟩ := hstored rfl
    obtain ⟨hfinish, hcounts⟩ := hlevel'.toLedger.finish s₁
    have hall := hlevel'.waiting
    dsimp only at h hpending hall
    rw [hpending, List.map_nil, List.append_nil] at hall
    rw [h] at hfinish hcounts
    exact ⟨past', hfinish, hall, hcounts counts rfl⟩

/-- A writer that starts over a table, its rows removed where that is wanted,
is fresh. -/
theorem fresh_start {x x' : Storage} {t : Table} {duplicates : Duplicates} {batch : Option Nat}
    {truncate : Bool} (hmedium : x.medium = .table t) (ht : t.Indexed)
    (hcounts : duplicates.counts = {})
    (h : start x duplicates batch truncate s = (.ok w, x', s')) :
    w.Fresh (if truncate then t.truncate else t) := by
  unfold LocalWriter.start at h
  cases truncate with
  | false =>
    cases h
    exact ⟨hmedium, ht, hcounts, rfl, rfl⟩
  | true =>
    dsimp only at h
    unfold Storage.truncate at h
    rw [hmedium] at h
    dsimp only at h
    cases hfails : x.failures .truncate (x.truncates + 1) with
    | some e =>
      rw [hfails] at h
      cases h
    | none =>
      rw [hfails] at h
      cases h
      exact ⟨rfl, Table.indexed_empty t.keyColumn, hcounts, rfl, rfl⟩

end Calls

end LocalWriter
end Intake
