import Intake.Proofs.Writer.Tally
/-!
# Batches are not to be seen

A writer with batches stores its rows later than a writer without, and
accounts for them later. Over a table that stores whatever it is given,
nobody can tell the two apart by what they come to.

Here a writer is given rows and closed, up to the first failure
(`LocalWriter.submit`). `submit_batched` says that with batches of any
size it comes to what it comes to without (`Alike`): the same outcome,
the same account of duplicate keys with the same counts, the same files
and the same log, and the same table where all went well. The failure is
the same one and holds the same key or the same count, though it may come
later: with the last row of its batch, or on closing. How full the table
is by then is not promised: the rest of the batch has been stored
(`batch_adrift`).

What carries this is that storing does not look at the account and
accounting does not look at the table. So the rows that wait can be
thought of as rows yet to be given (`submit_waiting`), whatever the batch
and wherever in it the keys recur.
-/

namespace Intake

/-! ## Tables that do not fail -/

/-- A table in memory none of whose inserts fails. -/
structure Storage.Faultless (x : Storage) : Prop where
  table : ∃ t, x.medium = .table t
  inserts : ∀ n, x.failures .insert n = none

namespace Storage.Faultless

variable {x : Storage}

/-- What becomes of a row does not depend on the files around. -/
theorem insert (h : x.Faultless) (row : Row) (keep : Keep) :
    ∃ outcome x', x'.Faultless ∧ ∀ d, x.insert row keep d = (.ok outcome, x', d) := by
  obtain ⟨t, hmedium⟩ := h.table
  rcases hstored : t.insert row keep with ⟨outcome, t'⟩
  refine ⟨outcome, { x with inserts := x.inserts + 1, medium := .table t' }, ⟨⟨t', rfl⟩, h.inserts⟩,
    ?_⟩
  intro d
  simp only [Storage.insert, h.inserts, hmedium, hstored]

end Storage.Faultless

namespace LocalWriter

/-! ## One row after another, and a batch -/

/-- The writer without its batches, and without the rows that wait. -/
def unbatched (w : LocalWriter) : LocalWriter :=
  { storage := w.storage, duplicates := w.duplicates }

theorem insertEach_append (w : LocalWriter) (s : Site) (before after : List (Row × Bytes)) :
    w.insertEach s (before ++ after)
      = match w.insertEach s before with
        | (.error e, w, s) => (.error e, w, s)
        | (.ok (), w, s) => w.insertEach s after := by
  induction before generalizing w s with
  | nil => rfl
  | cons entry before ih =>
    obtain ⟨row, raw⟩ := entry
    rw [List.cons_append, insertEach, insertEach]
    rcases w.insert row raw s with ⟨e | _, w', s'⟩
    · rfl
    · exact ih w' s'

/-- **Storing all and then accounting for all is storing and accounting row
by row**, but for what is stored past the row that the account stops at.
The policy stays, so the table is asked to keep the same rows. -/
theorem insertEach_eq_recordAll {x : Storage} (h : x.Faultless) (t : Duplicates) (s : Site)
    (entries : List (Row × Bytes)) :
    ∃ outcomes x' result t' s' w', x'.Faultless ∧
      (∀ d, x.insertAll t.keep d (entries.map Prod.fst) = (.ok outcomes, x', d)) ∧
      recordAll t s (outcomes.zip (entries.map Prod.snd)) = (result, t', s') ∧
      ({ storage := x, duplicates := t } : LocalWriter).insertEach s entries = (result, w', s') ∧
      w'.duplicates = t' ∧ (result = .ok () → w' = { storage := x', duplicates := t' }) := by
  induction entries generalizing x t s with
  | nil => exact ⟨[], x, _, t, s, _, h, fun _ => rfl, rfl, rfl, rfl, fun _ => rfl⟩
  | cons entry entries ih =>
    obtain ⟨row, raw⟩ := entry
    obtain ⟨outcome, x₁, h₁, hinsert⟩ := h.insert row t.keep
    rcases hrecord : t.record outcome raw s with ⟨result, t₁, s₁⟩
    have hkeep : t₁.keep = t.keep := by
      have hpolicy := (t.record_eq outcome raw s).1
      rw [hrecord] at hpolicy
      exact Duplicates.keep_congr hpolicy
    have hfirst : ({ storage := x, duplicates := t } : LocalWriter).insert row raw s
        = (result, { storage := x₁, duplicates := t₁ }, s₁) := by
      simp only [insert, insertDirect, hinsert, hrecord, Bool.false_eq_true, if_false]
    obtain ⟨outcomes, x', result', t', s', w', h', hinsertAll, hrecordAll, hinsertEach, hduplicates,
      hstored⟩ := ih h₁ t₁ s₁
    rw [hkeep] at hinsertAll
    have hall : ∀ d, x.insertAll t.keep d (((row, raw) :: entries).map Prod.fst)
        = (.ok (outcome :: outcomes), x', d) := by
      intro d
      simp only [List.map_cons, Storage.insertAll, hinsert, hinsertAll]
    cases result with
    | error e =>
      refine ⟨_, x', .error e, t₁, s₁, { storage := x₁, duplicates := t₁ }, h', hall, ?_, ?_, rfl,
        fun hok => by cases hok⟩
      · simp only [List.map_cons, List.zip_cons_cons, recordAll, hrecord]
      · simp only [insertEach, hfirst]
    | ok =>
      refine ⟨_, x', result', t', s', w', h', hall, ?_, ?_, hduplicates, hstored⟩
      · simp only [List.map_cons, List.zip_cons_cons, recordAll, hrecord, hrecordAll]
      · simp only [insertEach, hfirst, hinsertEach]

/-- A batch comes to what its rows come to one by one. Where that goes
well, nothing waits afterwards. -/
theorem flush_eq_insertEach {w : LocalWriter} (h : w.storage.Faultless) (s : Site) :
    ∃ result w' w₁ s', w.flush s = (result, w', s') ∧
      w.unbatched.insertEach s w.pending = (result, w₁, s') ∧ w'.duplicates = w₁.duplicates ∧
      (result = .ok () → w'.storage.Faultless ∧ w'.batch = w.batch ∧ w'.pending = [] ∧
        w'.closed = w.closed ∧ w₁ = w'.unbatched) := by
  obtain ⟨outcomes, x', result, t', s', w₁, h', hinsertAll, hrecordAll, hinsertEach, hduplicates,
    hstored⟩ := insertEach_eq_recordAll h w.duplicates s w.pending
  by_cases hpending : w.pending = []
  · refine ⟨.ok (), w, w.unbatched, s, ?_, ?_, rfl, fun _ => ⟨h, rfl, hpending, rfl, rfl⟩⟩
    · rw [flush_eq, hpending, List.isEmpty_nil, if_pos rfl]
    · rw [hpending, insertEach]
  · refine ⟨result, { w with storage := x', duplicates := t', slots := w.slots.clear }, w₁, s', ?_,
      hinsertEach, hduplicates.symm, fun hok => ⟨h', rfl, rfl, rfl, hstored hok⟩⟩
    rw [flush_eq, if_neg (mt List.isEmpty_iff.mp hpending), hinsertAll]
    simp only [hrecordAll]

/-! ## Rows to the end -/

/-- Gives rows with their records and closes the writer, up to the first
failure. -/
def submit (w : LocalWriter) (entries : List (Row × Bytes)) (s : Site) :
    Except WriterError Counts × LocalWriter × Site :=
  match w.insertEach s entries with
  | (.error e, w, s) => (.error e, w, s)
  | (.ok (), w, s) => w.close false s

theorem submit_append (w : LocalWriter) (before after : List (Row × Bytes)) (s : Site) :
    w.submit (before ++ after) s
      = match w.insertEach s before with
        | (.error e, w, s) => (.error e, w, s)
        | (.ok (), w, s) => w.submit after s := by
  unfold submit
  rw [insertEach_append]
  rcases w.insertEach s before with ⟨e | _, w', s'⟩
  · rfl
  · rfl

/-- Two writers have come to the same: nothing else in the world differs,
both report the same, and if all went well they have the same stored. -/
structure Alike (a b : Except WriterError Counts × LocalWriter × Site) : Prop where
  /-- Success with the same counts, or the same failure. -/
  outcome : a.1 = b.1
  /-- Every file, the one of duplicates included, and the log. -/
  site : a.2.2 = b.2.2
  duplicates : a.2.1.duplicates = b.2.1.duplicates
  /-- What each reports from here. -/
  reported : ∃ counts, (a.2.1.close true a.2.2).1 = .ok counts ∧
    (b.2.1.close true b.2.2).1 = .ok counts
  stored : ∀ counts, a.1 = .ok counts → a.2.1.storage = b.2.1.storage

/-- Closing in error mode reports the counts as they are. -/
theorem close_onError (w : LocalWriter) (s : Site) :
    (w.close true s).1 = .ok w.duplicates.counts := by
  unfold close
  split <;> rfl

namespace Alike

theorem of_failure {w w' : LocalWriter} (h : w.duplicates = w'.duplicates) (e : WriterError)
    (s : Site) : Alike (.error e, w, s) (.error e, w', s) where
  outcome := rfl
  site := rfl
  duplicates := h
  reported := ⟨w.duplicates.counts, w.close_onError s, h ▸ w'.close_onError s⟩
  stored := nofun

/-- Finishing looks at the storage and the account only. -/
theorem finish {w w' : LocalWriter} (hstorage : w.storage = w'.storage)
    (hduplicates : w.duplicates = w'.duplicates) (s : Site) :
    Alike (w.finish s) (w'.finish s) := by
  unfold LocalWriter.finish
  rw [hstorage, hduplicates]
  rcases w'.storage.finish s.directory with ⟨e | _, x, d⟩
  · apply of_failure
    rfl
  · exact ⟨rfl, rfl, rfl, ⟨_, close_onError _ _, close_onError _ _⟩, fun _ _ => rfl⟩

end Alike

variable {w : LocalWriter}

/-- Closing stores the last batch. -/
theorem alike_close (h : w.storage.Faultless) (hopen : w.closed = false) (s : Site) :
    Alike (w.close false s) (w.unbatched.submit w.pending s) := by
  obtain ⟨result, w', w₁, s', hflush, hinsertEach, hduplicates, hok⟩ :=
    flush_eq_insertEach (w := { w with closed := true }) h s
  have hgiven : w.unbatched.insertEach s w.pending = (result, w₁, s') := hinsertEach
  simp only [LocalWriter.close, submit, hopen, Bool.false_eq_true, if_false, hflush, hgiven]
  cases result with
  | error e => exact .of_failure hduplicates e s'
  | ok =>
    obtain ⟨-, -, -, -, rfl⟩ := hok rfl
    -- Nothing waits any more, so the writer without batches only finishes.
    apply Alike.finish
    · rfl
    · rfl

/-- **Rows that wait are rows yet to be given.** By induction on the rows
that come: each is one more that waits, until the batch is full and all of
it is given. -/
theorem alike_submit (h : w.storage.Faultless) (hopen : w.closed = false) {size : Nat}
    (hbatch : w.batch = some size) (entries : List (Row × Bytes)) (s : Site) :
    Alike (w.submit entries s) (w.unbatched.submit (w.pending ++ entries) s) := by
  induction entries generalizing w s with
  | nil =>
    rw [List.append_nil]
    exact alike_close h hopen s
  | cons entry entries ih =>
    obtain ⟨row, raw⟩ := entry
    rw [List.append_cons]
    rw [← w.pending_hold]
    by_cases hfull : size ≤ (w.hold row raw).slots.used
    · obtain ⟨result, w', w₁, s', hflush, hinsertEach, hduplicates, hok⟩ :=
        flush_eq_insertEach (w := w.hold row raw) h s
      have hinsert : w.insert row raw s = (result, w', s') := by
        simp only [LocalWriter.insert, hopen, hbatch, Bool.false_eq_true, if_false]
        rw [if_pos hfull]
        exact hflush
      have hgiven : w.unbatched.insertEach s (w.hold row raw).pending = (result, w₁, s') :=
        hinsertEach
      rw [submit_append, hgiven, submit, insertEach, hinsert]
      cases result with
      | error e => exact .of_failure hduplicates e s'
      | ok =>
        obtain ⟨h', hbatch', hpending, hclosed, rfl⟩ := hok rfl
        have hrest := ih h' (hclosed.trans hopen) (hbatch'.trans hbatch) s'
        rw [hpending, List.nil_append] at hrest
        exact hrest
    · have hinsert : w.insert row raw s = (.ok (), w.hold row raw, s) := by
        simp only [LocalWriter.insert, hopen, hbatch, Bool.false_eq_true, if_false]
        rw [if_neg hfull]
      have hrest := ih (w := w.hold row raw) h hopen hbatch s
      rw [submit, insertEach, hinsert]
      exact hrest

/-- **Batches are not to be seen.** -/
theorem submit_batched {x : Storage} (h : x.Faultless) (t : Duplicates) (size : Nat)
    (entries : List (Row × Bytes)) (s : Site) :
    Alike (LocalWriter.submit { storage := x, duplicates := t, batch := some size } entries s)
      (LocalWriter.submit { storage := x, duplicates := t } entries s) :=
  alike_submit (w := { storage := x, duplicates := t, batch := some size }) h rfl rfl entries s

theorem faultless_keyed : keyed.storage.Faultless := ⟨⟨_, rfl⟩, fun _ => rfl⟩

/-- An account that lets new rows take the places of any number of stored
ones. -/
def renewing : Duplicates := { policy := .keepNew, limit := .unlimited }

/-- With batches of two the recurring key is in the first batch. The last
row is put into the first of its slots again and stored alone on closing,
while the second slot still holds a row that has been stored. -/
theorem submit_batched_recurring :
    keyed.storage.Faultless ∧
      Alike
        (LocalWriter.submit { storage := keyed.storage, duplicates := renewing, batch := some 2 }
          recurring {})
        (LocalWriter.submit { storage := keyed.storage, duplicates := renewing } recurring {}) ∧
      (LocalWriter.submit { storage := keyed.storage, duplicates := renewing, batch := some 2 }
          recurring {}).1
        = .ok { inserted := 2, duplicateOld := 1 } :=
  ⟨faultless_keyed, submit_batched faultless_keyed renewing 2 recurring {}, by decide +kernel⟩

end LocalWriter
end Intake
