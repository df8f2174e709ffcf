import Intake.Proofs.Site.Files
import Intake.Proofs.Writer.Waiting
/-!
# Writers and files

Two things are asked of a writer about files. A writer that is apart from
a file leaves its bytes alone, whatever is asked of it and however that
ends (`Writer.Apart`). A writer is blind if it does the same at two sites
that agree on some files, and they agree afterwards, on whichever files
that be (`Writer.Blind`): it looks neither at the bytes of files nor at
the log. This is asked of it only where it does not fail, because what a
failure to open a file is called may depend on files.

A writer over a storage is blind, with batches or without, over a table
or a file (`LocalWriter.blind`), and apart from every file that it does
not write itself (`LocalWriter.apart`).
-/

namespace Intake

/-- A writer that leaves the files of some names alone, in some states,
and stays in them. -/
structure Writer.Apart {σ : Type} (w : Writer σ) (names : String → Prop) (d : Directory)
    (safe : σ → Prop) : Prop where
  insert : ∀ {st s}, safe st → d.Alongside s.directory → ∀ row raw,
    ∃ outcome st₁ s₁, w.insert st row raw s = (outcome, st₁, s₁) ∧ safe st₁ ∧
      s.directory.Agrees names s₁.directory
  close : ∀ {st s}, safe st → d.Alongside s.directory → ∀ onError,
    ∃ outcome st₁ s₁, w.close st onError s = (outcome, st₁, s₁) ∧ safe st₁ ∧
      s.directory.Agrees names s₁.directory

/-- A writer that does the same at sites that agree, unless it fails. -/
structure Writer.Blind {σ : Type} (w : Writer σ) : Prop where
  insert : ∀ {names st st' row raw s s₁ s'}, w.insert st row raw s = (.ok (), st', s₁) →
    s.Agrees names s' → s.Alongside s₁ ∧
      ∃ s₁', w.insert st row raw s' = (.ok (), st', s₁') ∧ s₁.Agrees names s₁'
  close : ∀ {names st st' counts s s₁ s'}, w.close st false s = (.ok counts, st', s₁) →
    s.Agrees names s' → s.Alongside s₁ ∧
      ∃ s₁', w.close st false s' = (.ok counts, st', s₁') ∧ s₁.Agrees names s₁'

variable {names : String → Prop} {d d' : Directory} {s s' s₁ : Site}

theorem Site.agrees_warn (names : String → Prop) (s : Site) (text : String) :
    s.Agrees names (s.warn text) := ⟨.refl _ _, rfl⟩

/-! ## The same in directories that agree -/

theorem CsvFile.relieve_alike (f : CsvFile) (h : d.Agrees names d') :
    ∃ f₁ d₁ d₁', f.relieve d = (f₁, d₁) ∧ f.relieve d' = (f₁, d₁') ∧ d₁.Agrees names d₁' := by
  simp only [relieve]
  generalize (if f.sheet.output.length ≤ capacity then 0
    else (f.sheet.output.length - 1) / capacity * capacity) = size
  by_cases hnone : size = 0
  · rw [if_pos hnone, if_pos hnone]
    exact ⟨_, _, _, rfl, rfl, h⟩
  · rw [if_neg hnone, if_neg hnone]
    exact ⟨_, _, _, rfl, rfl, h.append _ _⟩

theorem CsvFile.insert_alike (f : CsvFile) (row : Row) (h : d.Agrees names d') :
    ∃ outcome f₁ d₁ d₁', f.insert row d = (outcome, f₁, d₁) ∧
      f.insert row d' = (outcome, f₁, d₁') ∧ d₁.Agrees names d₁' := by
  unfold insert
  rcases f.sheet.record (row.values.map Value.bytes) with ⟨outcome, sheet⟩
  obtain ⟨f₁, d₁, d₁', hrelieve, hrelieve', h₁⟩ := relieve_alike { f with sheet := sheet } h
  dsimp only
  rw [hrelieve, hrelieve']
  cases outcome with
  | ok _ => exact ⟨_, _, _, _, rfl, rfl, h₁⟩
  | error m => exact ⟨_, _, _, _, rfl, rfl, h₁⟩

namespace Storage

theorem insert_alike (x : Storage) (row : Row) (keep : Keep) (h : d.Agrees names d') :
    ∃ outcome x₁ d₁ d₁', x.insert row keep d = (outcome, x₁, d₁) ∧
      x.insert row keep d' = (outcome, x₁, d₁') ∧ d₁.Agrees names d₁' := by
  unfold insert
  dsimp only
  split
  · exact ⟨_, _, _, _, rfl, rfl, h⟩
  · split
    · exact ⟨_, _, _, _, rfl, rfl, h⟩
    · next f _ =>
      obtain ⟨outcome, f₁, d₁, d₁', hinsert, hinsert', h₁⟩ := f.insert_alike row h
      rw [hinsert, hinsert']
      cases outcome with
      | ok _ => exact ⟨_, _, _, _, rfl, rfl, h₁⟩
      | error e => exact ⟨_, _, _, _, rfl, rfl, h₁⟩

theorem insertAll_alike (x : Storage) (keep : Keep) (rows : List Row) (h : d.Agrees names d') :
    ∃ outcome x₁ d₁ d₁', x.insertAll keep d rows = (outcome, x₁, d₁) ∧
      x.insertAll keep d' rows = (outcome, x₁, d₁') ∧ d₁.Agrees names d₁' := by
  induction rows generalizing x d d' with
  | nil => exact ⟨_, _, _, _, rfl, rfl, h⟩
  | cons row rows ih =>
    obtain ⟨outcome, x₁, d₁, d₁', hinsert, hinsert', h₁⟩ := x.insert_alike row keep h
    rw [insertAll, insertAll, hinsert, hinsert']
    cases outcome with
    | error e => exact ⟨_, _, _, _, rfl, rfl, h₁⟩
    | ok outcome =>
      obtain ⟨rest, x₂, d₂, d₂', hrest, hrest', h₂⟩ := ih x₁ h₁
      dsimp only
      rw [hrest, hrest']
      cases rest with
      | error e => exact ⟨_, _, _, _, rfl, rfl, h₂⟩
      | ok outcomes => exact ⟨_, _, _, _, rfl, rfl, h₂⟩

theorem finish_alike (x : Storage) (h : d.Agrees names d') :
    ∃ outcome x₁ d₁ d₁', x.finish d = (outcome, x₁, d₁) ∧ x.finish d' = (outcome, x₁, d₁') ∧
      d₁.Agrees names d₁' := by
  unfold finish
  dsimp only
  split
  · exact ⟨_, _, _, _, rfl, rfl, h⟩
  · split
    · exact ⟨_, _, _, _, rfl, rfl, h⟩
    · exact ⟨_, _, _, _, rfl, rfl, h.append _ _⟩

end Storage

namespace Duplicates

theorem flush_alike (t : Duplicates) (h : s.Agrees names s') :
    ∃ t₁ s₁ s₁', t.flush s = (t₁, s₁) ∧ t.flush s' = (t₁, s₁') ∧ s₁.Agrees names s₁' := by
  obtain ⟨file, d₁, d₁', hflush, hflush', h₁⟩ := t.file.flush_alike h.directory
  unfold flush
  rw [hflush, hflush']
  exact ⟨_, _, _, rfl, rfl, h₁, h.token⟩

theorem reject_alike {t t' : Duplicates} {raw : Bytes} (h : s.Agrees names s')
    (hreject : t.reject raw s = (.ok (), t', s₁)) :
    ∃ s₁', t.reject raw s' = (.ok (), t', s₁') ∧ s₁.Agrees names s₁' := by
  unfold reject at hreject ⊢
  rcases happend : t.file.append raw s.directory with ⟨_ | _, file, d₁⟩
  · rw [happend] at hreject
    cases hreject
  · obtain ⟨d₁', happend', h₁⟩ := BadFile.append_alike h.directory happend
    rw [happend] at hreject
    rw [happend']
    dsimp only at hreject ⊢
    split at hreject
    · cases hreject
    · next hfew =>
      cases hreject
      rw [if_neg hfew]
      exact ⟨_, rfl, h₁, h.token⟩

theorem record_alike {t t' : Duplicates} {outcome : Outcome} {raw : Bytes} (h : s.Agrees names s')
    (hrecord : t.record outcome raw s = (.ok (), t', s₁)) :
    ∃ s₁', t.record outcome raw s' = (.ok (), t', s₁') ∧ s₁.Agrees names s₁' := by
  have hwarn : ∀ text, (s.warn text).Agrees names (s'.warn text) :=
    fun text => ((s.agrees_warn names text).symm.trans h).trans (s'.agrees_warn names text)
  unfold record at hrecord ⊢
  cases outcome with
  | inserted =>
    cases hrecord
    exact ⟨s', rfl, h⟩
  | discarded key =>
    dsimp only at hrecord ⊢
    split at hrecord
    · cases hrecord
    · next hpolicy =>
      rw [if_neg hpolicy]
      exact reject_alike (hwarn _) hrecord
  | replaced key old => exact reject_alike (hwarn _) hrecord

end Duplicates

namespace LocalWriter

variable {w w' : LocalWriter}

theorem recordAll_alike {t t' : Duplicates} {xs : List (Outcome × Bytes)} (h : s.Agrees names s')
    (hrecord : recordAll t s xs = (.ok (), t', s₁)) :
    ∃ s₁', recordAll t s' xs = (.ok (), t', s₁') ∧ s₁.Agrees names s₁' := by
  induction xs generalizing t s s' with
  | nil =>
    cases hrecord
    exact ⟨s', rfl, h⟩
  | cons x xs ih =>
    obtain ⟨outcome, raw⟩ := x
    rw [recordAll] at hrecord ⊢
    rcases hfirst : t.record outcome raw s with ⟨_ | _, t₁, s₂⟩
    · rw [hfirst] at hrecord
      cases hrecord
    · obtain ⟨s₂', hfirst', h₂⟩ := Duplicates.record_alike h hfirst
      rw [hfirst] at hrecord
      rw [hfirst']
      exact ih h₂ hrecord

theorem flush_alike (h : s.Agrees names s') (hflush : w.flush s = (.ok (), w', s₁)) :
    ∃ s₁', w.flush s' = (.ok (), w', s₁') ∧ s₁.Agrees names s₁' := by
  rw [flush_eq] at hflush ⊢
  split at hflush
  · next hempty =>
    cases hflush
    rw [if_pos hempty]
    exact ⟨s', rfl, h⟩
  next hempty =>
  rw [if_neg hempty]
  obtain ⟨outcome, x, d₁, d₁', hinsert, hinsert', h₁⟩ :=
    w.storage.insertAll_alike w.duplicates.keep (w.pending.map Prod.fst) h.directory
  rw [hinsert] at hflush
  rw [hinsert']
  cases outcome with
  | error e => cases hflush
  | ok outcomes =>
    have hsite : Site.Agrees names { s with directory := d₁ } { s' with directory := d₁' } :=
      ⟨h₁, h.token⟩
    dsimp only at hflush ⊢
    rcases hrecord : recordAll w.duplicates { s with directory := d₁ }
      (outcomes.zip (w.pending.map Prod.snd)) with ⟨_ | _, t, s₂⟩
    · rw [hrecord] at hflush
      cases hflush
    · obtain ⟨s₂', hrecord', h₂⟩ := recordAll_alike hsite hrecord
      rw [hrecord] at hflush
      rw [hrecord']
      cases hflush
      exact ⟨s₂', rfl, h₂⟩

theorem insertDirect_alike {row : Row} {raw : Bytes} (h : s.Agrees names s')
    (hinsert : w.insertDirect row raw s = (.ok (), w', s₁)) :
    ∃ s₁', w.insertDirect row raw s' = (.ok (), w', s₁') ∧ s₁.Agrees names s₁' := by
  unfold insertDirect at hinsert ⊢
  obtain ⟨outcome, x, d₁, d₁', hstore, hstore', h₁⟩ :=
    w.storage.insert_alike row w.duplicates.keep h.directory
  rw [hstore] at hinsert
  rw [hstore']
  cases outcome with
  | error e => cases hinsert
  | ok outcome =>
    have hsite : Site.Agrees names { s with directory := d₁ } { s' with directory := d₁' } :=
      ⟨h₁, h.token⟩
    dsimp only at hinsert ⊢
    rcases hrecord : w.duplicates.record outcome raw { s with directory := d₁ } with ⟨_ | _, t, s₂⟩
    · rw [hrecord] at hinsert
      cases hinsert
    · obtain ⟨s₂', hrecord', h₂⟩ := Duplicates.record_alike hsite hrecord
      rw [hrecord] at hinsert
      rw [hrecord']
      cases hinsert
      exact ⟨s₂', rfl, h₂⟩

theorem insert_alike {row : Row} {raw : Bytes} (h : s.Agrees names s')
    (hinsert : w.insert row raw s = (.ok (), w', s₁)) :
    ∃ s₁', w.insert row raw s' = (.ok (), w', s₁') ∧ s₁.Agrees names s₁' := by
  unfold insert at hinsert ⊢
  by_cases hclosed : w.closed = true
  · rw [if_pos hclosed] at hinsert
    cases hinsert
  rw [if_neg hclosed] at hinsert ⊢
  rcases hbatch : w.batch with _ | size
  · rw [hbatch] at hinsert
    exact insertDirect_alike h hinsert
  · rw [hbatch] at hinsert
    dsimp only at hinsert ⊢
    by_cases hfull : size ≤ (w.hold row raw).slots.used
    · rw [if_pos hfull] at hinsert ⊢
      exact flush_alike h hinsert
    · rw [if_neg hfull] at hinsert ⊢
      cases hinsert
      exact ⟨s', rfl, h⟩

theorem finish_alike {counts : Counts} (h : s.Agrees names s')
    (hfinish : w.finish s = (.ok counts, w', s₁)) :
    ∃ s₁', w.finish s' = (.ok counts, w', s₁') ∧ s₁.Agrees names s₁' := by
  unfold finish at hfinish ⊢
  obtain ⟨outcome, x, d₁, d₁', hstore, hstore', h₁⟩ := w.storage.finish_alike h.directory
  rw [hstore] at hfinish
  rw [hstore']
  cases outcome with
  | error e => cases hfinish
  | ok _ =>
    have hsite : Site.Agrees names { s with directory := d₁ } { s' with directory := d₁' } :=
      ⟨h₁, h.token⟩
    obtain ⟨t, s₂, s₂', hflush, hflush', h₂⟩ := w.duplicates.flush_alike hsite
    dsimp only at hfinish ⊢
    rw [hflush] at hfinish
    rw [hflush']
    cases hfinish
    exact ⟨s₂', rfl, h₂⟩

theorem close_alike {counts : Counts} (h : s.Agrees names s')
    (hclose : w.close false s = (.ok counts, w', s₁)) :
    ∃ s₁', w.close false s' = (.ok counts, w', s₁') ∧ s₁.Agrees names s₁' := by
  unfold close at hclose ⊢
  by_cases hclosed : w.closed = true
  · rw [if_pos hclosed] at hclose ⊢
    cases hclose
    exact ⟨s', rfl, h⟩
  rw [if_neg hclosed] at hclose ⊢
  dsimp only at hclose ⊢
  rw [if_neg Bool.false_ne_true] at hclose ⊢
  rcases hflush : ({ w with closed := true } : LocalWriter).flush s with ⟨_ | _, w₁, s₂⟩
  · rw [hflush] at hclose
    cases hclose
  · obtain ⟨s₂', hflush', h₂⟩ := flush_alike h hflush
    rw [hflush] at hclose
    rw [hflush']
    exact finish_alike h₂ hclose

end LocalWriter

/-! ## Files that are left alone -/

theorem CsvFile.relieve_agrees {f : CsvFile} (hf : ¬ names f.name) (d : Directory) :
    ∃ f₁ d₁, f.relieve d = (f₁, d₁) ∧ f₁.name = f.name ∧ d.Agrees names d₁ := by
  simp only [relieve]
  generalize (if f.sheet.output.length ≤ capacity then 0
    else (f.sheet.output.length - 1) / capacity * capacity) = size
  split
  · exact ⟨_, _, rfl, rfl, .refl names d⟩
  · exact ⟨_, _, rfl, rfl, Directory.agrees_append hf d _⟩

theorem CsvFile.insert_agrees {f : CsvFile} (hf : ¬ names f.name) (row : Row) (d : Directory) :
    ∃ outcome f₁ d₁, f.insert row d = (outcome, f₁, d₁) ∧ f₁.name = f.name ∧
      d.Agrees names d₁ := by
  unfold insert
  rcases f.sheet.record (row.values.map Value.bytes) with ⟨outcome, sheet⟩
  obtain ⟨f₁, d₁, hrelieve, hname, h₁⟩ := relieve_agrees (f := { f with sheet := sheet }) hf d
  dsimp only
  rw [hrelieve]
  cases outcome with
  | ok _ => exact ⟨_, _, _, rfl, hname, h₁⟩
  | error m => exact ⟨_, _, _, rfl, hname, h₁⟩

namespace Storage

/-- A storage that is none of the files of some names. -/
def Elsewhere (names : String → Prop) (x : Storage) : Prop :=
  ∀ f, x.medium = .file f → ¬ names f.name

theorem Elsewhere.insert {x : Storage} (h : x.Elsewhere names) (row : Row) (keep : Keep)
    (d : Directory) :
    ∃ outcome x₁ d₁, x.insert row keep d = (outcome, x₁, d₁) ∧ x₁.Elsewhere names ∧
      d.Agrees names d₁ := by
  unfold Storage.insert
  dsimp only
  split
  · exact ⟨_, _, _, rfl, h, .refl names d⟩
  · split
    · exact ⟨_, _, _, rfl, nofun, .refl names d⟩
    · next f hmedium =>
      obtain ⟨outcome, f₁, d₁, hinsert, hname, h₁⟩ :=
        CsvFile.insert_agrees (h f hmedium) row d
      have hother : ∀ f', Medium.file f₁ = .file f' → ¬ names f'.name := by
        rintro _ ⟨⟩
        rw [hname]
        exact h f hmedium
      rw [hinsert]
      cases outcome with
      | error e => exact ⟨_, _, _, rfl, hother, h₁⟩
      | ok _ => exact ⟨_, _, _, rfl, hother, h₁⟩

theorem Elsewhere.insertAll {x : Storage} (h : x.Elsewhere names) (keep : Keep) (rows : List Row)
    (d : Directory) :
    ∃ outcome x₁ d₁, x.insertAll keep d rows = (outcome, x₁, d₁) ∧ x₁.Elsewhere names ∧
      d.Agrees names d₁ := by
  induction rows generalizing x d with
  | nil => exact ⟨_, _, _, rfl, h, .refl names d⟩
  | cons row rows ih =>
    obtain ⟨outcome, x₁, d₁, hinsert, hx₁, h₁⟩ := h.insert row keep d
    rw [Storage.insertAll, hinsert]
    cases outcome with
    | error e => exact ⟨_, _, _, rfl, hx₁, h₁⟩
    | ok outcome =>
      obtain ⟨rest, x₂, d₂, hrest, hx₂, h₂⟩ := ih hx₁ d₁
      dsimp only
      rw [hrest]
      cases rest with
      | error e => exact ⟨_, _, _, rfl, hx₂, h₁.trans h₂⟩
      | ok outcomes => exact ⟨_, _, _, rfl, hx₂, h₁.trans h₂⟩

theorem Elsewhere.finish {x : Storage} (h : x.Elsewhere names) (d : Directory) :
    ∃ outcome x₁ d₁, x.finish d = (outcome, x₁, d₁) ∧ x₁.Elsewhere names ∧
      d.Agrees names d₁ := by
  unfold Storage.finish
  dsimp only
  split
  · exact ⟨_, _, _, rfl, h, .refl names d⟩
  · split
    · exact ⟨_, _, _, rfl, h, .refl names d⟩
    · next f hmedium =>
      refine ⟨_, _, _, rfl, ?_, Directory.agrees_append (h f hmedium) d _⟩
      rintro _ ⟨⟩
      exact h f hmedium

end Storage

namespace Duplicates

theorem flush_agrees {t : Duplicates} (h : t.file.Elsewhere names d) (s : Site) :
    ∃ t₁ s₁, t.flush s = (t₁, s₁) ∧ t₁.file.Elsewhere names d ∧ s.Agrees names s₁ := by
  obtain ⟨file, d₁, hflush, hfile, h₁⟩ := h.flush s.directory
  unfold flush
  rw [hflush]
  exact ⟨_, _, rfl, hfile, h₁, rfl⟩

theorem reject_agrees {t : Duplicates} (h : t.file.Elsewhere names d)
    (hs : d.Alongside s.directory) (raw : Bytes) :
    ∃ outcome t₁ s₁, t.reject raw s = (outcome, t₁, s₁) ∧ t₁.file.Elsewhere names d ∧
      s.Agrees names s₁ := by
  obtain ⟨outcome, file, d₁, happend, hfile, h₁⟩ := h.append hs raw
  unfold reject
  rw [happend]
  cases outcome with
  | error e => exact ⟨_, _, _, rfl, hfile, h₁, rfl⟩
  | ok _ =>
    have hsite : s.Agrees names { s with directory := d₁ } := ⟨h₁, rfl⟩
    dsimp only
    split
    · obtain ⟨t₂, s₂, hflush, ht₂, h₂⟩ :=
        flush_agrees (t := { t with file := file }) hfile { s with directory := d₁ }
      rw [hflush]
      exact ⟨_, _, _, rfl, ht₂, hsite.trans h₂⟩
    · exact ⟨_, _, _, rfl, hfile, hsite⟩

theorem record_agrees {t : Duplicates} (h : t.file.Elsewhere names d)
    (hs : d.Alongside s.directory) (outcome : Outcome) (raw : Bytes) :
    ∃ result t₁ s₁, t.record outcome raw s = (result, t₁, s₁) ∧ t₁.file.Elsewhere names d ∧
      s.Agrees names s₁ := by
  have hreject : ∀ counts text record, ∃ result t₁ s₁,
      ({ t with counts := counts } : Duplicates).reject record (s.warn text) = (result, t₁, s₁) ∧
      t₁.file.Elsewhere names d ∧ s.Agrees names s₁ := by
    intro counts text record
    obtain ⟨result, t₁, s₁, hreject, hfile, h₁⟩ :=
      reject_agrees (t := { t with counts := counts }) (s := s.warn text) h hs record
    exact ⟨result, t₁, s₁, hreject, hfile, (s.agrees_warn names text).trans h₁⟩
  unfold record
  cases outcome with
  | inserted => exact ⟨_, _, _, rfl, h, .refl names s⟩
  | discarded key =>
    dsimp only
    split
    · exact ⟨_, _, _, rfl, h, .refl names s⟩
    · exact hreject _ _ _
  | replaced key old => exact hreject _ _ _

end Duplicates

namespace LocalWriter

/-- A writer that writes to none of the files of some names. -/
structure Elsewhere (names : String → Prop) (d : Directory) (w : LocalWriter) : Prop where
  storage : w.storage.Elsewhere names
  duplicates : w.duplicates.file.Elsewhere names d

variable {w : LocalWriter}

theorem recordAll_agrees {t : Duplicates} (h : t.file.Elsewhere names d)
    (hs : d.Alongside s.directory) (xs : List (Outcome × Bytes)) :
    ∃ result t₁ s₁, recordAll t s xs = (result, t₁, s₁) ∧ t₁.file.Elsewhere names d ∧
      s.Agrees names s₁ := by
  induction xs generalizing t s with
  | nil => exact ⟨_, _, _, rfl, h, .refl names s⟩
  | cons x xs ih =>
    obtain ⟨outcome, raw⟩ := x
    obtain ⟨result, t₁, s₁, hfirst, ht₁, h₁⟩ := Duplicates.record_agrees h hs outcome raw
    rw [recordAll, hfirst]
    cases result with
    | error e => exact ⟨_, _, _, rfl, ht₁, h₁⟩
    | ok _ =>
      obtain ⟨result, t₂, s₂, hrest, ht₂, h₂⟩ := ih ht₁ (hs.trans h₁.directory.toAlongside)
      exact ⟨result, t₂, s₂, hrest, ht₂, h₁.trans h₂⟩

theorem Elsewhere.flush (h : w.Elsewhere names d) (hs : d.Alongside s.directory) :
    ∃ outcome w₁ s₁, w.flush s = (outcome, w₁, s₁) ∧ w₁.Elsewhere names d ∧
      s.Agrees names s₁ := by
  rw [flush_eq]
  split
  · exact ⟨_, _, _, rfl, h, .refl names s⟩
  obtain ⟨outcome, x, d₁, hinsert, hx, h₁⟩ :=
    h.storage.insertAll w.duplicates.keep (w.pending.map Prod.fst) s.directory
  rw [hinsert]
  cases outcome with
  | error e => exact ⟨_, _, _, rfl, ⟨hx, h.duplicates⟩, h₁, rfl⟩
  | ok outcomes =>
    have hsite : s.Agrees names { s with directory := d₁ } := ⟨h₁, rfl⟩
    obtain ⟨result, t, s₂, hrecord, ht, h₂⟩ := recordAll_agrees (s := { s with directory := d₁ })
      h.duplicates (hs.trans h₁.toAlongside) (outcomes.zip (w.pending.map Prod.snd))
    dsimp only
    rw [hrecord]
    exact ⟨_, _, _, rfl, ⟨hx, ht⟩, hsite.trans h₂⟩

theorem Elsewhere.insertDirect (h : w.Elsewhere names d) (hs : d.Alongside s.directory) (row : Row)
    (raw : Bytes) :
    ∃ outcome w₁ s₁, w.insertDirect row raw s = (outcome, w₁, s₁) ∧ w₁.Elsewhere names d ∧
      s.Agrees names s₁ := by
  unfold LocalWriter.insertDirect
  obtain ⟨outcome, x, d₁, hinsert, hx, h₁⟩ :=
    h.storage.insert row w.duplicates.keep s.directory
  rw [hinsert]
  cases outcome with
  | error e => exact ⟨_, _, _, rfl, ⟨hx, h.duplicates⟩, h₁, rfl⟩
  | ok outcome =>
    have hsite : s.Agrees names { s with directory := d₁ } := ⟨h₁, rfl⟩
    obtain ⟨result, t, s₂, hrecord, ht, h₂⟩ := Duplicates.record_agrees
      (s := { s with directory := d₁ }) h.duplicates (hs.trans h₁.toAlongside) outcome raw
    dsimp only
    rw [hrecord]
    exact ⟨_, _, _, rfl, ⟨hx, ht⟩, hsite.trans h₂⟩

theorem Elsewhere.insert (h : w.Elsewhere names d) (hs : d.Alongside s.directory) (row : Row)
    (raw : Bytes) :
    ∃ outcome w₁ s₁, w.insert row raw s = (outcome, w₁, s₁) ∧ w₁.Elsewhere names d ∧
      s.Agrees names s₁ := by
  unfold LocalWriter.insert
  split
  · exact ⟨_, _, _, rfl, h, .refl names s⟩
  split
  · exact h.insertDirect hs row raw
  · dsimp only
    split
    · exact Elsewhere.flush (w := w.hold row raw) ⟨h.storage, h.duplicates⟩ hs
    · exact ⟨_, _, _, rfl, ⟨h.storage, h.duplicates⟩, .refl names s⟩

theorem Elsewhere.finish (h : w.Elsewhere names d) (s : Site) :
    ∃ outcome w₁ s₁, w.finish s = (outcome, w₁, s₁) ∧ w₁.Elsewhere names d ∧
      s.Agrees names s₁ := by
  unfold LocalWriter.finish
  obtain ⟨outcome, x, d₁, hfinish, hx, h₁⟩ := h.storage.finish s.directory
  rw [hfinish]
  cases outcome with
  | error e => exact ⟨_, _, _, rfl, ⟨hx, h.duplicates⟩, h₁, rfl⟩
  | ok _ =>
    have hsite : s.Agrees names { s with directory := d₁ } := ⟨h₁, rfl⟩
    obtain ⟨t, s₂, hflush, ht, h₂⟩ :=
      Duplicates.flush_agrees h.duplicates { s with directory := d₁ }
    dsimp only
    rw [hflush]
    exact ⟨_, _, _, rfl, ⟨hx, ht⟩, hsite.trans h₂⟩

theorem Elsewhere.close (h : w.Elsewhere names d) (hs : d.Alongside s.directory) (onError : Bool) :
    ∃ outcome w₁ s₁, w.close onError s = (outcome, w₁, s₁) ∧ w₁.Elsewhere names d ∧
      s.Agrees names s₁ := by
  unfold LocalWriter.close
  split
  · exact ⟨_, _, _, rfl, h, .refl names s⟩
  dsimp only
  split
  · obtain ⟨t, s₁, hflush, ht, h₁⟩ := Duplicates.flush_agrees h.duplicates s
    rw [hflush]
    exact ⟨_, _, _, rfl, ⟨h.storage, ht⟩, h₁⟩
  · obtain ⟨outcome, w₁, s₁, hflush, hw₁, h₁⟩ :=
      Elsewhere.flush (w := { w with closed := true }) ⟨h.storage, h.duplicates⟩ hs
    rw [hflush]
    cases outcome with
    | error e => exact ⟨_, _, _, rfl, hw₁, h₁⟩
    | ok _ =>
      obtain ⟨outcome, w₂, s₂, hfinish, hw₂, h₂⟩ := hw₁.finish s₁
      exact ⟨outcome, w₂, s₂, hfinish, hw₂, h₁.trans h₂⟩

/-- **A writer over a storage leaves every file alone that it does not
write.** -/
theorem apart (names : String → Prop) (d : Directory) :
    writer.Apart names d (Elsewhere names d) where
  insert h hs row raw := by
    obtain ⟨outcome, w₁, s₁, hinsert, hw₁, h₁⟩ := h.insert hs row raw
    exact ⟨outcome, w₁, s₁, hinsert, hw₁, h₁.directory⟩
  close h hs onError := by
    obtain ⟨outcome, w₁, s₁, hclose, hw₁, h₁⟩ := h.close hs onError
    exact ⟨outcome, w₁, s₁, hclose, hw₁, h₁.directory⟩

/-- Every writer is apart from no file at all. -/
theorem elsewhere_none (w : LocalWriter) (d : Directory) : w.Elsewhere (fun _ => False) d :=
  ⟨fun _ _ => id, ⟨fun _ _ => id, fun _ _ _ _ => id⟩⟩

/-- **A writer over a storage does the same at sites that agree.** -/
theorem blind : writer.Blind where
  insert {_ w _ row raw s _ _} hinsert h := by
    obtain ⟨outcome, w₁, s₁, hinsert₁, -, h₁⟩ :=
      (w.elsewhere_none s.directory).insert (.refl _) row raw
    cases hinsert₁.symm.trans hinsert
    exact ⟨h₁.alongside, insert_alike h hinsert⟩
  close {_ w _ _ s _ _} hclose h := by
    obtain ⟨outcome, w₁, s₁, hclose₁, -, h₁⟩ :=
      (w.elsewhere_none s.directory).close (.refl _) false
    cases hclose₁.symm.trans hclose
    exact ⟨h₁.alongside, close_alike h hclose⟩

end LocalWriter
end Intake
