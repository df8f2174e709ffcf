import Intake.Proofs.Site.Frame
import Intake.Proofs.Writer.Waiting
/-!
# Writers that take every row

What a run assumes of a writer when its rows are no trouble: the writer
takes each of them, and whatever it does, it does beside the file of a
name (`Writer.Steady`). Nothing is assumed about closing but the latter,
so a writer that takes every row and cannot be closed is steady too.

A writer over a table without a key whose inserts do not fail is steady,
with batches or without (`LocalWriter.steady`).
-/

namespace Intake

/-- A writer that takes every row in some states, and stays in them, and
that leaves the file of a name alone. -/
structure Writer.Steady {σ : Type} (w : Writer σ) (name : String) (s : Site)
    (accepting : σ → Prop) : Prop where
  insert : ∀ {st s'}, accepting st → s.Alongside s' → ∀ row raw,
    ∃ st' s'', w.insert st row raw s' = (.ok (), st', s'') ∧ accepting st' ∧ s'.Spares name s''
  close : ∀ {st s'}, accepting st → s.Alongside s' → ∀ onError,
    s'.Spares name (w.close st onError s').2.2
  /-- In error mode, once it has not come to a good end. -/
  reclose : ∀ {st s' s''}, accepting st → s.Alongside s' → s.Alongside s'' →
    s''.Spares name (w.close (w.close st false s').2.1 true s'').2.2

/-! ## Tables without a key -/

/-- A storage that stores every row. -/
structure Storage.Keyless (x : Storage) : Prop where
  medium : ∃ t : Table, x.medium = .table t ∧ t.keyColumn = none
  inserts : ∀ n, x.failures .insert n = none

namespace Storage

theorem Keyless.insert {x : Storage} (h : x.Keyless) (row : Row) (keep : Keep) (d : Directory) :
    ∃ x', x.insert row keep d = (.ok .inserted, x', d) ∧ x'.Keyless := by
  obtain ⟨⟨t, hmedium, hkey⟩, hinserts⟩ := h
  refine ⟨{ x with
    inserts := x.inserts + 1, medium := .table { t with rows := t.rows ++ [row] } }, ?_, ?_⟩
  · unfold Storage.insert
    dsimp only
    rw [hinserts, hmedium]
    simp only [Table.insert, Table.keyOf?, hkey]
  · exact ⟨⟨_, rfl, hkey⟩, hinserts⟩

theorem Keyless.insertAll {x : Storage} (h : x.Keyless) (keep : Keep) (d : Directory)
    (rows : List Row) :
    ∃ x', x.insertAll keep d rows = (.ok (rows.map fun _ => .inserted), x', d) ∧ x'.Keyless := by
  induction rows generalizing x with
  | nil => exact ⟨x, rfl, h⟩
  | cons row rows ih =>
    obtain ⟨x₁, hfirst, h₁⟩ := h.insert row keep d
    obtain ⟨x₂, hrest, h₂⟩ := ih h₁
    refine ⟨x₂, ?_, h₂⟩
    rw [Storage.insertAll, hfirst]
    dsimp only
    rw [hrest]
    rfl

/-- Whether it can be finished or not, a table has no file. -/
theorem Keyless.finish {x : Storage} (h : x.Keyless) (d : Directory) : (x.finish d).2.2 = d := by
  obtain ⟨t, hmedium, -⟩ := h.medium
  unfold Storage.finish
  dsimp only
  split
  · rfl
  · rw [hmedium]

end Storage

namespace LocalWriter

/-- A writer that is open over a storage of which every row is taken, and
has not come across a duplicate. -/
structure Keyless (w : LocalWriter) : Prop where
  storage : w.storage.Keyless
  unopened : w.duplicates.file.opened = none
  unclosed : w.closed = false

/-- Rows that are stored open no file. -/
theorem recordAll_inserted (t : Duplicates) (s : Site) {xs : List (Outcome × Bytes)}
    (h : ∀ x ∈ xs, x.1 = .inserted) :
    ∃ t', recordAll t s xs = (.ok (), t', s) ∧ t'.file = t.file := by
  induction xs generalizing t with
  | nil => exact ⟨t, rfl, rfl⟩
  | cons x xs ih =>
    obtain ⟨outcome, raw⟩ := x
    obtain rfl : outcome = .inserted := h _ List.mem_cons_self
    exact ih { t with counts := { t.counts with inserted := t.counts.inserted + 1 } }
      fun x hx => h x (List.mem_cons_of_mem _ hx)

/-- Where no file is open, there is nothing to write. -/
theorem flush_of_unopened {t : Duplicates} (h : t.file.opened = none) (s : Site) :
    t.flush s = (t, s) := by
  unfold Duplicates.flush BadFile.flush
  rw [h]

variable {w : LocalWriter}

theorem Keyless.insertDirect (h : w.Keyless) (row : Row) (raw : Bytes) (s : Site) :
    ∃ w', w.insertDirect row raw s = (.ok (), w', s) ∧ w'.Keyless := by
  obtain ⟨x, hinsert, hx⟩ := h.storage.insert row w.duplicates.keep s.directory
  unfold LocalWriter.insertDirect
  rw [hinsert]
  exact ⟨_, rfl, hx, h.unopened, h.unclosed⟩

/-- All rows that wait are stored. -/
theorem flush_ok (hstorage : w.storage.Keyless) (hunopened : w.duplicates.file.opened = none)
    (s : Site) :
    ∃ x t slots, w.flush s
        = (.ok (), { w with storage := x, duplicates := t, slots := slots }, s) ∧
      x.Keyless ∧ t.file.opened = none := by
  rw [flush_eq]
  split
  · exact ⟨w.storage, w.duplicates, w.slots, rfl, hstorage, hunopened⟩
  · obtain ⟨x, hinsert, hx⟩ :=
      hstorage.insertAll w.duplicates.keep s.directory (w.pending.map Prod.fst)
    have hstored : ∀ y ∈ ((w.pending.map Prod.fst).map fun _ => Outcome.inserted).zip
        (w.pending.map Prod.snd), y.1 = .inserted := by
      intro y hy
      obtain ⟨-, -, heq⟩ := List.mem_map.mp (List.of_mem_zip hy).1
      exact heq.symm
    obtain ⟨t, hrecord, ht⟩ := recordAll_inserted w.duplicates s hstored
    refine ⟨x, t, w.slots.clear, ?_, hx, ht ▸ hunopened⟩
    rw [hinsert]
    dsimp only
    rw [hrecord]

theorem Keyless.insert (h : w.Keyless) (row : Row) (raw : Bytes) (s : Site) :
    ∃ w', w.insert row raw s = (.ok (), w', s) ∧ w'.Keyless := by
  unfold LocalWriter.insert
  rw [if_neg (Bool.eq_false_iff.mp h.unclosed)]
  split
  · exact h.insertDirect row raw s
  · dsimp only
    split
    · obtain ⟨x, t, slots, hflush, hx, ht⟩ :=
        flush_ok (w := w.hold row raw) h.storage h.unopened s
      exact ⟨_, hflush, hx, ht, h.unclosed⟩
    · exact ⟨_, rfl, h.storage, h.unopened, h.unclosed⟩

/-- Closing it leaves the site as it is. -/
theorem Keyless.close (h : w.Keyless) (onError : Bool) (s : Site) :
    (w.close onError s).2.2 = s ∧ (w.close onError s).2.1.closed = true := by
  unfold LocalWriter.close
  rw [if_neg (Bool.eq_false_iff.mp h.unclosed)]
  dsimp only
  cases onError with
  | true =>
    rw [if_pos rfl, flush_of_unopened h.unopened]
    exact ⟨rfl, rfl⟩
  | false =>
    rw [if_neg Bool.false_ne_true]
    obtain ⟨x, t, slots, hflush, hx, ht⟩ :=
      flush_ok (w := { w with closed := true }) h.storage h.unopened s
    rw [hflush]
    have hfinish := hx.finish s.directory
    unfold LocalWriter.finish
    dsimp only
    generalize x.finish s.directory = out at hfinish
    obtain ⟨outcome, x', d⟩ := out
    obtain rfl : d = s.directory := hfinish
    cases outcome with
    | error e => exact ⟨rfl, rfl⟩
    | ok _ =>
      dsimp only
      rw [flush_of_unopened ht]
      exact ⟨rfl, rfl⟩

theorem close_of_closed (h : w.closed = true) (onError : Bool) (s : Site) :
    w.close onError s = (.ok w.duplicates.counts, w, s) := if_pos h

/-- **A writer over a table without a key takes every row**, in batches or
one by one, unless its storage refuses. -/
theorem steady (name : String) (s : Site) : writer.Steady name s Keyless where
  insert h _ row raw := by
    obtain ⟨w', hinsert, hw'⟩ := h.insert row raw _
    exact ⟨w', _, hinsert, hw', .refl name _⟩
  close h _ onError := by
    show Site.Spares name _ (LocalWriter.close _ onError _).2.2
    rw [(h.close onError _).1]
    exact .refl name _
  reclose h _ _ := by
    show Site.Spares name _ ((LocalWriter.close _ false _).2.1.close true _).2.2
    rw [close_of_closed (h.close false _).2]
    exact .refl name _

end LocalWriter
end Intake
