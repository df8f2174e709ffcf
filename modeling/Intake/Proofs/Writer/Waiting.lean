import Intake.Writer.Local
/-!
# Rows that wait

The slots of a batched writer are a list of rows with their records to all
that it does. A row that is held is a row more at the end of this list,
and storing a batch is storing the rows of the list and accounting for
each with its record (`LocalWriter.flush_eq`). The rows of earlier batches
that are left in other slots are never stored again, and no outcome is
ever taken for theirs, because a storage that takes a batch has one
outcome for each of its rows.
-/

namespace Intake

/-- Storing rows gives an outcome for each. -/
theorem Storage.length_insertAll {x x' : Storage} {keep : Keep} {d d' : Directory}
    {rows : List Row} {outcomes : List Outcome}
    (h : x.insertAll keep d rows = (.ok outcomes, x', d')) : outcomes.length = rows.length := by
  induction rows generalizing x d outcomes with
  | nil =>
    cases h
    rfl
  | cons row rows ih =>
    rw [insertAll] at h
    rcases hinsert : x.insert row keep d with ⟨_ | outcome, x₁, d₁⟩ <;> rw [hinsert] at h
    · cases h
    · dsimp only at h
      rcases hall : x₁.insertAll keep d₁ rows with ⟨_ | later, x₂, d₂⟩
      · rw [hall] at h
        cases h
      · rw [hall] at h
        cases h
        exact congrArg (· + 1) (ih hall)

namespace LocalWriter

variable (w : LocalWriter)

@[simp] theorem length_pending : w.pending.length = w.slots.used := w.slots.length_entries

@[simp] theorem pending_hold (row : Row) (raw : Bytes) :
    (w.hold row raw).pending = w.pending ++ [(row, raw)] := w.slots.entries_put row raw

/-- **What waits is stored in the order of its coming, and each row is
accounted for with its own record.** -/
theorem flush_eq (s : Site) :
    w.flush s
      = if w.pending.isEmpty then (.ok (), w, s)
        else
          match w.storage.insertAll w.duplicates.keep s.directory (w.pending.map Prod.fst) with
          | (.error e, storage, directory) =>
            (.error (.ofStorage e), { w with storage := storage }, { s with directory := directory })
          | (.ok outcomes, storage, directory) =>
            match recordAll w.duplicates { s with directory := directory }
              (outcomes.zip (w.pending.map Prod.snd)) with
            | (outcome, duplicates, s) =>
              (outcome,
                { w with storage := storage, duplicates := duplicates, slots := w.slots.clear },
                s) := by
  have hempty : w.pending.isEmpty = true ↔ w.slots.used = 0 := by
    rw [List.isEmpty_iff_length_eq_zero, length_pending]
  have hrows : w.pending.map Prod.fst = w.slots.batch := w.slots.map_fst_entries
  unfold flush
  simp only [hempty, hrows]
  split
  · rfl
  rcases hinsert : w.storage.insertAll w.duplicates.keep s.directory w.slots.batch with
    ⟨_ | outcomes, storage, directory⟩
  · rfl
  · have hlength := Storage.length_insertAll hinsert
    rw [w.slots.length_batch] at hlength
    dsimp only
    rw [w.slots.zip_raws (Nat.le_of_eq hlength)]
    rfl

end LocalWriter
end Intake
