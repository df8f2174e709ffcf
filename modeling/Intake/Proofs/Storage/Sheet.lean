import Intake.Proofs.Site.Frame
import Intake.Storage.Basic
/-!
# What a file of rows holds

A file of rows that is given rows of one width takes all of them, and when
it has been finished, there is one line for each row in it, in their order,
behind what it had before (`Storage.dump`).

A line is put together field by field. The closing quote of a field is
written only when something comes behind it, and so the record in progress
is what has been written, with the quote that is still due
(`Csv.Sheet.Amid`). Of the lines some part waits and some part is in the
file; the two together are what the file holds (`CsvFile.Holds`), wherever
the one ends and the other begins.
-/

namespace Intake

/-- The line of a row in a file. -/
def Row.fileLine (r : Row) : Bytes := Csv.line (r.values.map Value.bytes)

namespace Csv

/-! ## One record -/

theorem encodeFields_concat {fields : List Bytes} (h : fields ≠ []) (f : Bytes) :
    encodeFields (fields ++ [f]) = encodeFields fields ++ comma :: encodeField f := by
  cases fields with
  | nil => exact absurd rfl h
  | cons g fields => simp [encodeFields]

namespace Sheet

/-- A sheet in the middle of a record that has some fields so far. -/
structure Amid (s : Sheet) (fields : List Bytes) : Prop where
  /-- They are written, but for a quote that is due. -/
  written : s.output ++ s.closing = encodeFields fields
  started : s.started = fields.length
  bare : s.bare = (encodeFields fields).isEmpty

/-- A sheet between two records. -/
structure Resting (s : Sheet) : Prop where
  started : s.started = 0
  openQuote : s.openQuote = false
  bare : s.bare = true

variable {s : Sheet} {fields : List Bytes}

theorem Resting.amid (h : s.Resting) : Amid { s with output := [] } [] where
  written := by rw [closing, h.openQuote]; rfl
  started := h.started
  bare := h.bare

/-- What is in front of a field that is written. -/
def lead (s : Sheet) : Bytes := if s.started = 0 then [] else s.closing ++ [comma]

/-- A field is written behind that, its closing quote being due. -/
theorem field_written (s : Sheet) (f : Bytes) :
    (s.field f).output ++ (s.field f).closing = s.output ++ s.lead ++ encodeField f := by
  have hbody : (if needsQuotes f then quote :: doubled f else f)
      ++ (if needsQuotes f then [quote] else []) = encodeField f := by
    unfold encodeField
    split
    · rfl
    · exact List.append_nil f
  rw [← hbody, ← List.append_assoc]
  rfl

theorem field_bare (s : Sheet) (f : Bytes) :
    (s.field f).bare = (s.bare && s.lead.isEmpty && (encodeField f).isEmpty) := by
  have hempty : (if needsQuotes f then quote :: doubled f else f).isEmpty
      = (encodeField f).isEmpty := by
    unfold encodeField
    split <;> rfl
  rw [← hempty]
  rfl

/-- **One field more.** -/
theorem Amid.field (h : s.Amid fields) (f : Bytes) : (s.field f).Amid (fields ++ [f]) := by
  obtain ⟨hwritten, hstarted, hbare⟩ := h
  have hlength : (s.field f).started = (fields ++ [f]).length := by
    rw [List.length_append]
    exact congrArg (· + 1) hstarted
  cases fields with
  | nil =>
    have hnone : s.output = [] := (List.append_eq_nil_iff.mp hwritten).1
    have hone : encodeFields ([] ++ [f]) = encodeField f := List.append_nil _
    have hlead : s.lead = [] := if_pos hstarted
    refine ⟨?_, hlength, ?_⟩
    · rw [field_written, hone, hnone, hlead]
      rfl
    · rw [field_bare, hone, hbare, hlead]
      rfl
  | cons g fields =>
    have hmore := encodeFields_concat (List.cons_ne_nil g fields) f
    have hlead : s.lead = s.closing ++ [comma] := if_neg (hstarted ▸ Nat.succ_ne_zero _)
    refine ⟨?_, hlength, ?_⟩
    · rw [field_written, hmore, ← hwritten, hlead]
      simp only [List.append_assoc, List.singleton_append]
    · have hbyte : ∀ (xs ys : Bytes), (xs ++ comma :: ys).isEmpty = false := by
        intro xs ys
        cases xs <;> rfl
      rw [field_bare, hmore, hlead, hbyte, hbyte, Bool.and_false, Bool.false_and]

theorem Amid.foldl (h : s.Amid fields) (more : List Bytes) :
    (more.foldl Sheet.field s).Amid (fields ++ more) ∧
      (more.foldl Sheet.field s).width = s.width := by
  induction more generalizing s fields with
  | nil => exact ⟨(List.append_nil fields).symm ▸ h, rfl⟩
  | cons f more ih =>
    rw [List.append_cons]
    exact ih (h.field f)

/-- The line feed makes a line of the fields. -/
theorem Amid.finished (h : s.Amid fields) (width : Option Nat) :
    endRecord.finished { s with width := width } = { output := line fields, width := width } := by
  have hline : s.output ++ (if s.bare then [quote, quote] else s.closing) ++ [lineFeed]
      = line fields := by
    rw [line, ← h.bare]
    split
    · next hbare =>
      have hnone := h.written
      rw [List.isEmpty_iff.mp (h.bare.symm.trans hbare)] at hnone
      rw [(List.append_eq_nil_iff.mp hnone).1]
      rfl
    · rw [h.written]
  rw [← hline]
  rfl

/-- **A record of the right width is written as one line.** -/
theorem record_eq (h : s.Resting) (hwidth : s.width = none ∨ s.width = some fields.length) :
    s.record fields
      = (.ok (), { output := s.output ++ line fields, width := some fields.length }) := by
  obtain ⟨hamid, hsame⟩ := h.amid.foldl fields
  rw [List.nil_append] at hamid
  unfold record
  generalize fields.foldl field { s with output := [] } = t at hamid hsame
  have hend : t.endRecord = (.ok (), { output := line fields, width := some fields.length }) := by
    unfold endRecord
    rcases hwidth with hnone | hsome
    · rw [show t.width = none from hsame.trans hnone]
      dsimp only
      rw [hamid.finished, hamid.started]
    · have hwidth : t.width = some fields.length := hsame.trans hsome
      rw [hwidth]
      dsimp only
      rw [if_pos hamid.started.symm, ← hwidth]
      exact congrArg (Prod.mk _) (hamid.finished t.width)
  rw [hend]

end Sheet
end Csv

/-! ## One file -/

namespace CsvFile

/-- A file of rows of one width: of some bytes, a part is in the directory
and the rest waits. -/
structure Holds (f : CsvFile) (d : Directory) (name : String) (width : Nat) (bs : Bytes) :
    Prop where
  name_eq : f.name = name
  present : d.hasFile name = true
  resting : f.sheet.Resting
  width_eq : f.sheet.width = none ∨ f.sheet.width = some width
  bytes : d.bytesAt name ++ f.sheet.output = bs

section Holds

variable {f : CsvFile} {d : Directory} {name : String} {width : Nat} {bs : Bytes}

/-- Some of the bytes that wait are written. -/
theorem Holds.write (h : f.Holds d name width bs) {front back : Bytes}
    (hsplit : f.sheet.output = front ++ back) :
    ({ f with sheet := { f.sheet with output := back } } : CsvFile).Holds (d.append f.name front)
      name width bs where
  name_eq := h.name_eq
  present := Directory.hasFile_change (.inr h.present) _
  resting := ⟨h.resting.started, h.resting.openQuote, h.resting.bare⟩
  width_eq := h.width_eq
  bytes := by
    rw [Directory.bytesAt_append, if_pos h.name_eq.symm, h.name_eq, List.append_assoc, ← hsplit,
      h.bytes]

theorem Holds.relieve (h : f.Holds d name width bs) :
    (f.relieve d).1.Holds (f.relieve d).2 name width bs ∧ d.Alongside (f.relieve d).2 := by
  unfold CsvFile.relieve
  dsimp only
  generalize (if f.sheet.output.length ≤ capacity then 0
    else (f.sheet.output.length - 1) / capacity * capacity) = size
  split
  · exact ⟨h, .refl d⟩
  · exact ⟨h.write (List.take_append_drop _ _).symm, d.alongside_change _ _⟩

/-- **One row more** is one line more. -/
theorem Holds.insert (h : f.Holds d name width bs) {row : Row} (hrow : row.width = width) :
    ∃ f' d', f.insert row d = (.ok (), f', d') ∧ f'.Holds d' name width (bs ++ row.fileLine) ∧
      d.Alongside d' := by
  have hlength : (row.values.map Value.bytes).length = width := by
    rw [List.length_map]
    exact hrow
  have hrecord : f.sheet.record (row.values.map Value.bytes) = _ :=
    Csv.Sheet.record_eq h.resting (hlength ▸ h.width_eq)
  have hmore : ({ f with
      sheet := { output := f.sheet.output ++ row.fileLine, width := some width } } : CsvFile).Holds
      d name width (bs ++ row.fileLine) := by
    refine ⟨h.name_eq, h.present, ⟨rfl, rfl, rfl⟩, .inr rfl, ?_⟩
    rw [← List.append_assoc, h.bytes]
  obtain ⟨hholds, halong⟩ := hmore.relieve
  unfold CsvFile.insert
  rw [hrecord, hlength]
  exact ⟨_, _, rfl, hholds, halong⟩

/-- When all has been written, the bytes are in the file. -/
theorem Holds.flush (h : f.Holds d name width bs) :
    (f.flush d).2.bytesAt name = bs ∧ (f.flush d).2.hasFile name = true ∧
      d.Alongside (f.flush d).2 := by
  have hsplit : f.sheet.output = f.sheet.output ++ [] := (List.append_nil _).symm
  have hall := h.write hsplit
  have hbytes := hall.bytes
  rw [List.append_nil] at hbytes
  exact ⟨hbytes, hall.present, d.alongside_change _ _⟩

/-- A file that has been opened holds what is in it. -/
theorem holds_openAt {path : String} {d₀ : Directory} (hopen : openAt path d₀ = (.ok f, d))
    (width : Nat) : f.Holds d f.name width (d.bytesAt f.name) ∧
      d₀.openToAppend path = (.ok f.name, d) := by
  unfold openAt at hopen
  rcases happend : d₀.openToAppend path with ⟨e | name, d'⟩
  · rw [happend] at hopen
    cases hopen
  · rw [happend] at hopen
    cases hopen
    have hpresent := Directory.hasFile_openToAppend (congrArg Prod.fst happend)
    rw [happend] at hpresent
    exact ⟨⟨rfl, hpresent, ⟨rfl, rfl, rfl⟩, .inl rfl, List.append_nil _⟩, rfl⟩

end Holds
end CsvFile

/-! ## Many rows -/

namespace Storage

variable {x : Storage} {f : CsvFile} {d : Directory} {name : String} {width : Nat} {bs : Bytes}

/-- A storage whose rows go to a file, and that does not fail. -/
structure Filing (x : Storage) (f : CsvFile) : Prop where
  medium : x.medium = .file f
  sound : ∀ call n, x.failures call n = none

theorem Filing.insert (h : x.Filing f) (hholds : f.Holds d name width bs) {row : Row}
    (hrow : row.width = width) (keep : Keep) :
    ∃ x' f' d', x.insert row keep d = (.ok .inserted, x', d') ∧ x'.Filing f' ∧
      f'.Holds d' name width (bs ++ row.fileLine) ∧ d.Alongside d' := by
  obtain ⟨f', d', hinsert, hholds', halong⟩ := hholds.insert hrow
  refine ⟨{ x with inserts := x.inserts + 1, medium := .file f' }, f', d', ?_, ⟨rfl, h.sound⟩,
    hholds', halong⟩
  unfold Storage.insert
  dsimp only
  rw [h.sound, h.medium]
  dsimp only
  rw [hinsert]

/-- **All rows are inserted**, each as its line. -/
theorem Filing.insertAll (h : x.Filing f) (hholds : f.Holds d name width bs) {rows : List Row}
    (hrows : ∀ row ∈ rows, row.width = width) (keep : Keep) :
    ∃ x' f' d', x.insertAll keep d rows = (.ok (rows.map fun _ => .inserted), x', d') ∧
      x'.Filing f' ∧ f'.Holds d' name width (bs ++ rows.flatMap Row.fileLine) ∧ d.Alongside d' := by
  induction rows generalizing x f d bs with
  | nil => exact ⟨x, f, d, rfl, h, (List.append_nil bs).symm ▸ hholds, .refl d⟩
  | cons row rows ih =>
    obtain ⟨hrow, hrest⟩ := List.forall_mem_cons.mp hrows
    obtain ⟨x₁, f₁, d₁, hfirst, h₁, hholds₁, halong₁⟩ := h.insert hholds hrow keep
    obtain ⟨x₂, f₂, d₂, hothers, h₂, hholds₂, halong₂⟩ := ih h₁ hholds₁ hrest
    refine ⟨x₂, f₂, d₂, ?_, h₂, ?_, halong₁.trans halong₂⟩
    · rw [Storage.insertAll, hfirst]
      dsimp only
      rw [hothers]
      rfl
    · rw [List.flatMap_cons, ← List.append_assoc]
      exact hholds₂

theorem Filing.finish (h : x.Filing f) (hholds : f.Holds d name width bs) :
    ∃ x' d', x.finish d = (.ok (), x', d') ∧ d'.bytesAt name = bs ∧ d'.hasFile name = true ∧
      d.Alongside d' := by
  obtain ⟨hbytes, hpresent, halong⟩ := hholds.flush
  refine ⟨{ x with finishes := x.finishes + 1, medium := .file (f.flush d).1 }, (f.flush d).2, ?_,
    hbytes, hpresent, halong⟩
  unfold Storage.finish
  dsimp only
  rw [h.sound, h.medium]

/-- **A file that rows are added to has a line for each of them** when it
has been finished, behind what it had before, and can be read under the
name that it was opened by. -/
theorem dump {path : String} {d₀ : Directory} (hopen : CsvFile.openAt path d₀ = (.ok f, d))
    {rows : List Row} (hrows : ∀ row ∈ rows, row.width = width) (keep : Keep) :
    ∃ x₁ d₁ x₂ d₂, ({ medium := .file f } : Storage).insertAll keep d rows
        = (.ok (rows.map fun _ => .inserted), x₁, d₁) ∧
      x₁.finish d₁ = (.ok (), x₂, d₂) ∧
      d₂.openToRead path = .ok (.ok (d.bytesAt f.name ++ rows.flatMap Row.fileLine)) := by
  obtain ⟨hholds, happend⟩ := CsvFile.holds_openAt hopen width
  have hfiling : ({ medium := .file f } : Storage).Filing f := ⟨rfl, fun _ _ => rfl⟩
  obtain ⟨x₁, f₁, d₁, hall, h₁, hholds₁, halong₁⟩ := hfiling.insertAll hholds hrows keep
  obtain ⟨x₂, d₂, hfinish, hbytes, hpresent, halong₂⟩ := h₁.finish hholds₁
  have halong : (d₀.openToAppend path).2.Alongside d₂ := by
    rw [happend]
    exact halong₁.trans halong₂
  have hread := halong.openToRead_eq (congrArg Prod.fst happend) hpresent
  rw [hbytes] at hread
  exact ⟨x₁, d₁, x₂, d₂, hall, hfinish, hread⟩

end Storage
end Intake
