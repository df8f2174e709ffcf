import Intake.Proofs.Conversion.Attempt
import Intake.Run.Loader
/-!
# Runs that fail for their options

Options are held to themselves when they are read, and to the source and
the table when the reader is chosen (`RecordReader.start`). Nothing that
comes after finds fault with them: not the reading of records, not their
conversion, not the account of rejects and not the writer, whose failures
are of other kinds. So a run that fails for its options has read nothing
(`Loader.start_of_run_config`).
-/

namespace Intake

/-- Options that are wrong, or do not fit the source or the table. -/
def LoadError.isConfig : LoadError → Bool
  | .config _ => true
  | _ => false

/-- A step that does not fail for the options. -/
def Unblamed {α : Type} (x : Except LoadError α) : Prop :=
  ∀ e, x = .error e → e.isConfig = false

theorem unblamed_ok {α : Type} (a : α) : Unblamed (.ok a) := nofun

theorem unblamed_error {α : Type} {e : LoadError} (h : e.isConfig = false) :
    Unblamed (.error e : Except LoadError α) := by
  intro e' he'
  cases he'
  exact h

/-- A failure that is passed on is the same failure. -/
theorem Unblamed.error {α β : Type} {e : LoadError}
    (h : Unblamed (.error e : Except LoadError α)) : Unblamed (.error e : Except LoadError β) :=
  unblamed_error (h e rfl)

/-! ## Reading -/

namespace Buffer

theorem unblamed_makeRoom (b : Buffer) (record : Nat) : Unblamed (b.makeRoom record).1 := by
  unfold makeRoom grow
  dsimp only
  repeat' split
  all_goals first | exact unblamed_ok () | exact unblamed_error rfl

theorem unblamed_fill (b : Buffer) (s : ByteSource) (record : Nat) :
    Unblamed (b.fill s record).outcome := by
  have hroom := b.unblamed_makeRoom record
  unfold fill
  split
  · exact unblamed_ok _
  · split
    · next h => exact (h ▸ hroom).error
    · split
      · exact unblamed_ok _
      · exact unblamed_ok _
      · exact unblamed_error rfl

theorem unblamed_terminate (b : Buffer) (byte : UInt8) (record : Nat) :
    Unblamed (b.terminate byte record).1 := by
  have hroom := b.unblamed_makeRoom record
  unfold terminate
  split
  · next h => exact (h ▸ hroom).error
  · exact unblamed_ok ()

end Buffer

namespace DelimitedReader

theorem unblamed_measureFrom (r : DelimitedReader) (size : Nat) (region : Region)
    (fresh : Bytes) : Unblamed (r.measureFrom size region fresh).1 := by
  fun_induction measureFrom r size region fresh with
  | case1 => exact unblamed_ok _
  | case2 r size region fresh size' region' hscan e buffer source h =>
    have hfill := r.buffer.unblamed_fill r.source (r.count + 1)
    rw [h] at hfill
    exact hfill.error
  | case3 r size region fresh size' region' hscan b bs buffer source h ih => exact ih
  | case4 => exact unblamed_ok _
  | case5 => exact unblamed_error rfl
  | case6 r size region fresh size' region' hscan buffer source h r' hsize hquoted e buffer' ht =>
    have hterminate := r'.buffer.unblamed_terminate Csv.lineFeed (r'.count + 1)
    rw [ht] at hterminate
    exact hterminate.error
  | case7 => exact unblamed_ok _

theorem unblamed_next (r : DelimitedReader) : Unblamed r.next.1 := by
  have hmeasure := r.unblamed_measureFrom 0 .outside r.buffer.pending
  unfold next measure
  split
  · next h => exact (h ▸ hmeasure).error
  · exact unblamed_ok _
  · exact unblamed_ok _

theorem unblamed_skipFrom (wanted left : Nat) (r : DelimitedReader) :
    Unblamed (skipFrom wanted r left).1 := by
  induction left generalizing r with
  | zero => exact unblamed_ok _
  | succ left ih =>
    have hmeasure := r.unblamed_measureFrom 0 .outside r.buffer.pending
    unfold skipFrom measure
    split
    · next h => exact (h ▸ hmeasure).error
    · exact unblamed_error rfl
    · exact ih _

end DelimitedReader

namespace FixedReader

theorem unblamed_gather (r : FixedReader) : Unblamed r.gather.1 := by
  fun_induction gather r with
  | case1 => exact unblamed_ok _
  | case2 r hfew e buffer source h =>
    have hfill := r.buffer.unblamed_fill r.source (r.count + 1)
    rw [h] at hfill
    exact hfill.error
  | case3 r hfew b bs buffer source h ih => exact ih
  | case4 => exact unblamed_ok _

theorem unblamed_next (r : FixedReader) : Unblamed r.next.1 := by
  have hgather := r.unblamed_gather
  unfold next
  split
  · next h => exact (h ▸ hgather).error
  · split
    · exact unblamed_ok _
    · dsimp only
      split <;> exact unblamed_ok _

theorem unblamed_skipFrom (wanted left : Nat) (r : FixedReader) :
    Unblamed (skipFrom wanted r left).1 := by
  induction left generalizing r with
  | zero => exact unblamed_ok _
  | succ left ih =>
    have hgather := r.unblamed_gather
    unfold skipFrom
    split
    · next h => exact (h ▸ hgather).error
    · split
      · exact unblamed_error rfl
      · exact ih _

end FixedReader

namespace RowReader

theorem unblamed_pull (r : RowReader) : Unblamed r.pull.1 := by
  unfold pull
  split
  · exact unblamed_ok _
  · next e _ _ =>
    refine unblamed_error ?_
    cases e <;> rfl
  · exact unblamed_ok _

theorem unblamed_next (r : RowReader) : Unblamed r.next.1 := by
  have hpull := r.unblamed_pull
  unfold next
  split
  · next h => exact (h ▸ hpull).error
  · exact unblamed_ok _
  · exact unblamed_ok _

theorem unblamed_skipFrom (wanted left : Nat) (r : RowReader) :
    Unblamed (skipFrom wanted r left).1 := by
  induction left generalizing r with
  | zero => exact unblamed_ok _
  | succ left ih =>
    have hpull := r.unblamed_pull
    unfold skipFrom
    split
    · next h => exact (h ▸ hpull).error
    · exact unblamed_error rfl
    · exact ih _

end RowReader

namespace RecordReader

theorem unblamed_next (r : RecordReader) : Unblamed r.next.1 := by
  cases r with
  | delimited r => exact r.unblamed_next
  | fixed r => exact r.unblamed_next
  | rows r => exact r.unblamed_next

theorem unblamed_skip (r : RecordReader) (n : Nat) : Unblamed (r.skip n).1 := by
  cases r with
  | delimited r => exact r.unblamed_skipFrom n n
  | fixed r => exact r.unblamed_skipFrom n n
  | rows r => exact r.unblamed_skipFrom n n

end RecordReader

/-! ## Converting and rejecting -/

/-- An attempt that does not stop the run for the options. -/
def Attempt.Unblamed (a : Attempt) : Prop := ∀ e, a.outcome = .error (.fatal e) → e.isConfig = false

theorem RowError.unblamed_ofStorage {record : Nat} {field : Option Nat} {cause : StorageError}
    {e : LoadError} (h : RowError.ofStorage record field cause = .fatal e) :
    e.isConfig = false := by
  cases cause <;> cases h <;> rfl

namespace Row

theorem unblamed_putNext (row : Row) (catalog : Catalog) (record i : Nat) (column : Column)
    (fields : List Field) : (row.putNext catalog record i column fields).Unblamed := by
  intro e he
  cases fields with
  | nil =>
    rw [putNext, putDefault] at he
    cases hdefault : column.default <;> rw [hdefault] at he <;> cases he
  | cons f fields =>
    rw [putNext, putField] at he
    cases hcontent : f.content? with
    | none =>
      rw [hcontent] at he
      cases he
    | some bs =>
      simp only [hcontent] at he
      split at he
      · cases he
      · split at he
        · cases he
        · exact RowError.unblamed_ofStorage (Except.error.inj he)

/-- By induction on the columns. -/
theorem unblamed_putFields (row : Row) (catalog : Catalog) (record i : Nat)
    (columns : List Column) (fields : List Field) (requests : List Interrupt) :
    (row.putFields catalog record i columns fields requests).Unblamed := by
  induction columns generalizing row i fields requests with
  | nil => exact nofun
  | cons column columns ih =>
    have hnext := row.unblamed_putNext catalog record i column fields
    rw [putFields_cons]
    generalize row.putNext catalog record i column fields = attempt at hnext
    obtain ⟨_ | _, row', asked⟩ := attempt
    · exact hnext
    · exact ih row' (i + 1) fields.tail (requests ++ asked)

theorem unblamed_build (row : Row) (schema : Schema) (catalog : Catalog) (record : Record) :
    (row.build schema catalog record).Unblamed := by
  unfold build
  split
  · exact nofun
  · split
    · exact nofun
    · exact unblamed_putFields _ catalog record.number 0 schema.columns record.fields []

end Row

namespace Rules

theorem unblamed_validate (r : Rules) (record : Nat) (row : Row) :
    (r.validate record row).Unblamed := by
  intro e he
  have hvalidated := r.validated record row
  generalize r.validate record row = checked at he hvalidated
  cases hvalidated with
  | unstored stored =>
    obtain ⟨rejection, hrejected⟩ := r.storeValues_rejected ((congrArg Prod.fst stored).trans he)
    cases hrejected
  | null => cases he
  | unasked => cases he
  | @answered _ answer =>
    cases answer with
    | ok _ => cases he
    | error cause => cases cause <;> cases he <;> rfl

theorem unblamed_attempt (r : Rules) (record : Record) (row : Row) :
    (r.attempt record row).Unblamed := by
  have hbuild := row.unblamed_build r.schema r.catalog record
  unfold attempt
  dsimp only
  split
  · exact hbuild
  · exact r.unblamed_validate record.number _

end Rules

namespace Rejects

theorem unblamed_reject (r : Rejects) (record : Nat) (raw : Bytes) (rejection : Rejection)
    (s : Site) : Unblamed (r.reject record raw rejection s).1 := by
  unfold reject
  dsimp only
  split
  · exact unblamed_error rfl
  · split
    · exact unblamed_error rfl
    · exact unblamed_ok ()

theorem unblamed_absorb (r : Rejects) (record : Nat) (raw : Bytes) {outcome : Except RowError Unit}
    (h : ∀ e, outcome = .error (.fatal e) → e.isConfig = false) (s : Site) :
    Unblamed (r.absorb record raw outcome s).1 := by
  unfold absorb
  split
  · exact unblamed_ok true
  · next e => exact unblamed_error (h e rfl)
  · next rejection =>
    have hreject := r.unblamed_reject record raw rejection s
    split
    · next heq => exact (heq ▸ hreject).error
    · exact unblamed_ok false

end Rejects

/-! ## The run -/

namespace Loader

variable {σ : Type}

theorem unblamed_records (w : Writer σ) (rules : Rules) (fuel : Nat) (left : Option Nat)
    (reader : RecordReader) (row : Row) (st : State σ) :
    Unblamed (records w rules fuel left reader row st).1 := by
  induction fuel generalizing left reader row st with
  | zero => exact unblamed_ok ()
  | succ fuel ih =>
    have hnext := reader.unblamed_next
    unfold records
    split
    · exact unblamed_ok ()
    · split
      -- Only an interrupt is a failure of the loop's own; the others are passed on.
      · exact unblamed_error rfl
      · split
        · next h => exact (h ▸ hnext).error
        · exact unblamed_ok ()
        · next record reader' h =>
          have habsorb := st.rejects.unblamed_absorb record.number record.raw
            (rules.unblamed_attempt record row)
            (st.site.request (rules.attempt record row).requests)
          dsimp only
          split
          · next h => exact (h ▸ habsorb).error
          · exact ih _ reader' _ _
          · split
            · exact unblamed_error rfl
            · exact ih _ reader' _ _

/-- Reading fails for the options only where the reader cannot be chosen. -/
theorem unblamed_load (l : Loader) (w : Writer σ) {source : Source} {reader : RecordReader}
    (hstart : RecordReader.start source l.options l.schema = .ok reader) (st : State σ) :
    Unblamed (l.load w source st).2.1 := by
  have hskip := reader.unblamed_skip l.options.skip
  unfold load
  rw [hstart]
  dsimp only
  split
  · exact unblamed_error rfl
  · split
    · next h => exact (h ▸ hskip).error
    · exact unblamed_records w l.rules _ _ _ _ st

theorem unblamed_finish (w : Writer σ) (st : State σ) : Unblamed (finish w st).1 := by
  unfold finish
  dsimp only
  split
  · exact unblamed_error rfl
  · exact unblamed_ok _

/-- **A run that fails for its options could not begin to read.** -/
theorem start_of_run_config {l : Loader} {w : Writer σ} {source : Source} {writer : σ} {s : Site}
    {f : LoadFailure} (h : (l.run w source writer s).1 = .error f)
    (hf : f.error.isConfig = true) :
    RecordReader.start source l.options l.schema = .error f.error := by
  cases hstart : RecordReader.start source l.options l.schema with
  | error e =>
    unfold run at h
    dsimp only at h
    rw [load_of_start_error hstart] at h
    cases h
    rfl
  | ok reader =>
    have hload := l.unblamed_load w hstart ⟨writer, l.rejects, l.observers (.started l.context) s⟩
    unfold run at h
    dsimp only at h
    generalize l.load w source ⟨writer, l.rejects, l.observers (.started l.context) s⟩ = loaded
      at h hload
    obtain ⟨skipped, e | _, st⟩ := loaded
    · cases h
      exact absurd (hload _ rfl) (by rw [hf]; exact Bool.noConfusion)
    · have hfinish := unblamed_finish w st
      dsimp only at h
      generalize finish w st = finished at h hfinish
      obtain ⟨e | counts, st'⟩ := finished
      · cases h
        exact absurd (hfinish _ rfl) (by rw [hf]; exact Bool.noConfusion)
      · cases h

end Loader
end Intake
