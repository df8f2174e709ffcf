import Intake.Proofs.Conversion.Reload
import Intake.Proofs.Run.Handing
import Intake.Proofs.Storage.Sheet
/-!
# Loading what has been stored

Rows that are stored in a file can be loaded from it again
(`Loader.reload_stored`). The file has one line for each of them, a load
with default options finds these lines, and the fields of each are
accepted as the row that they were. So the load does nothing but hand the
rows over, and it makes no difference how the file is read in pieces.

The buffer of a load has a limit, which is far away but there. A line that
does not fit into it ends the load with the rows before it.
-/

namespace Intake

/-- A row with its line in a file. -/
def Row.entry (row : Row) : Entry := (row, row.fileLine)

namespace Loader

/-! ## Lines that fit -/

/-- A load with default options reads lines that are shorter than this. -/
def lineLimit : Nat := ({} : Options).maxBufferSize

/-- The rows before the first of which the line is too long. -/
def readable (rows : List Row) : List Row := rows.takeWhile (·.fileLine.length < lineLimit)

/-- How reading the lines of rows ends. -/
def readableEnd (rows : List Row) : Except LoadError Unit :=
  Csv.linesEnd lineLimit (rows.map fun row => row.values.map Value.bytes)

section Readable

variable {rows : List Row}

theorem takeWhile_lines (rows : List Row) :
    (rows.map fun row => row.values.map Value.bytes).takeWhile
        (fun fields => (Csv.line fields).length < lineLimit)
      = (readable rows).map fun row => row.values.map Value.bytes :=
  List.takeWhile_map ..

theorem readable_part (rows : List Row) : readable rows <+: rows := List.takeWhile_prefix _

theorem readable_eq (h : ∀ row ∈ rows, row.fileLine.length < lineLimit) : readable rows = rows :=
  List.takeWhile_eq_self_iff.mpr fun row hrow => decide_eq_true (h row hrow)

theorem readableEnd_eq (rows : List Row) :
    readableEnd rows = if (readable rows).length < rows.length
      then .error (.recordTooLarge ((readable rows).length + 1) lineLimit) else .ok () :=
  Csv.linesEnd_map lineLimit (fun row : Row => row.values.map Value.bytes) rows

/-- Reading ends well exactly if all lines fit. -/
theorem readableEnd_eq_ok_iff : readableEnd rows = .ok () ↔ readable rows = rows := by
  rw [readableEnd_eq]
  constructor
  · intro h
    split at h
    · cases h
    · next hshort => exact (readable_part rows).eq_of_length_le (Nat.not_lt.mp hshort)
  · intro h
    rw [h, if_neg (Nat.lt_irrefl _)]

end Readable

/-! ## Loads -/

/-- What loads of a source come to that has the lines of some rows. -/
structure Restores (l : Loader) (rows : List Row) (source : Source) : Prop where
  /-- The rows are handed over, up to the first of which the line is too
  long. -/
  handsOver : l.HandsOver source (readableEnd rows) ((readable rows).map Row.entry)
  /-- Whatever the writer answers, no record is rejected, and the rows are
  what it is given. -/
  transferred : ∀ {σ : Type} (w : Writer σ) (writer : σ) (s : Site),
    Transferred (rows.map Row.entry) (l.run w.noting source (writer, []) s)
  /-- If no line is too long and nobody asks the run to stop, a willing
  writer takes all rows and is closed. -/
  completed : (∀ row ∈ rows, row.fileLine.length < lineLimit) →
    ∀ {σ : Type} {w : Writer σ} {accepting : σ → Prop}, w.Willing accepting →
    ∀ {writer : σ} {s : Site}, accepting writer →
    (l.observers (.started l.context) s).token.pending = none →
    Completed (counted 0 0) (rows.map Row.entry) (l.run w.noting source (writer, []) s).1
      (l.run w.noting source (writer, []) s).2.1.2

section Restores

variable {l : Loader} {rows : List Row} {source : Source}

theorem HandsOver.restores
    (h : l.HandsOver source (readableEnd rows) ((readable rows).map Row.entry)) :
    l.Restores rows source where
  handsOver := h
  transferred := h.transferred ((readable_part rows).map Row.entry) fun hend =>
    congrArg (List.map Row.entry) (readableEnd_eq_ok_iff.mp hend)
  completed := fun hfit {_ _ _} hw {_ _} hwriter hcalm => by
    have hall := readable_eq hfit
    rw [readableEnd_eq_ok_iff.mpr hall, hall] at h
    exact h.completed hw hwriter hcalm

/-- The records of rows are taken as the rows. -/
theorem takes_lineRecords (hcatalog : l.catalog = .plain) (hencoding : l.options.encoding = .utf8)
    (hrows : ∀ row ∈ rows, row.Lossless l.schema) (count : Nat) :
    List.Forall₂ l.rules.Takes
      (Csv.lineRecords count (rows.map fun row => row.values.map Value.bytes))
      (rows.map Row.entry) := by
  induction rows generalizing count with
  | nil => exact .nil
  | cons row rows ih =>
    obtain ⟨hrow, hrest⟩ := List.forall_mem_cons.mp hrows
    have hjudged := Rules.judge_restored (r := l.rules) hcatalog hencoding hrow (count + 1)
      row.fileLine
    exact .cons ⟨hjudged, rfl⟩ (ih hrest (count + 1))

/-- **The lines of rows are loaded as the rows.** -/
theorem restores_lines (hoptions : l.options = {}) (hcatalog : l.catalog = .plain)
    (hwidth : 2 ≤ l.schema.width) (hrows : ∀ row ∈ rows, row.Lossless l.schema)
    (cuts : List Cut) :
    l.Restores rows (.bytes { rest := rows.flatMap Row.fileLine, cuts := cuts }) := by
  have hforced : ∀ flag ∈ List.replicate l.schema.width false, flag = false :=
    fun _ => List.eq_of_mem_replicate
  have hbodies : ∀ fields ∈ rows.map fun row => row.values.map Value.bytes,
      Csv.encodeFields fields ≠ [] := by
    intro fields hfields
    obtain ⟨row, hrow, rfl⟩ := List.mem_map.mp hfields
    have hsame : row.values.length = l.schema.width := (hrows row hrow).width_eq
    refine Csv.encodeFields_ne_nil ?_
    rw [List.length_map, hsame]
    exact hwidth
  have hlines : (rows.map fun row => row.values.map Value.bytes).flatMap Csv.line
      = rows.flatMap Row.fileLine := List.flatMap_map ..
  have hdelivers := Csv.delivers_line hforced hbodies cuts ({} : Options).bufferSize lineLimit
  have hlimit : max 2 (max ({} : Options).bufferSize lineLimit) = lineLimit := by decide
  rw [hlimit, takeWhile_lines, hlines] at hdelivers
  have htakes := takes_lineRecords hcatalog (congrArg Options.encoding hoptions)
    (fun row hrow => hrows row ((readable_part rows).subset hrow)) 0
  refine HandsOver.restores (handsOver (congrArg Options.limit hoptions) ?_ ?_ htakes hdelivers)
  · rw [hoptions]
    rfl
  · rw [hoptions]
    rfl

end Restores

/-- **What has been stored in an empty file can be loaded from it.** Rows
that their table may hold and that a file can tell apart are all inserted,
and when the file has been finished, a load with default options gives
them to its writer again, in the same order. The buffer of such a load
takes lines of fewer than 2^30 bytes: any other is refused, and the load
has then given the rows before it. -/
theorem reload_stored {l : Loader} (hoptions : l.options = {}) (hcatalog : l.catalog = .plain)
    (hwidth : 2 ≤ l.schema.width) {rows : List Row} (hrows : ∀ row ∈ rows, row.Lossless l.schema)
    {path : String} {d d₁ : Directory} {f : CsvFile} (hopen : CsvFile.openAt path d = (.ok f, d₁))
    (hempty : d₁.bytesAt f.name = []) (keep : Keep) :
    ∃ x₁ d₂ x₂ d₃ bs, ({ medium := .file f } : Storage).insertAll keep d₁ rows
        = (.ok (rows.map fun _ => .inserted), x₁, d₂) ∧
      x₁.finish d₂ = (.ok (), x₂, d₃) ∧ d₃.openToRead path = .ok (.ok bs) ∧
      ∀ cuts, l.Restores rows (.bytes { rest := bs, cuts := cuts }) := by
  obtain ⟨x₁, d₂, x₂, d₃, hinsert, hfinish, hread⟩ :=
    Storage.dump hopen (fun row hrow => (hrows row hrow).width_eq) keep
  rw [hempty, List.nil_append] at hread
  exact ⟨x₁, d₂, x₂, d₃, _, hinsert, hfinish, hread,
    restores_lines hoptions hcatalog hwidth hrows⟩

/-- A load of numbered notes. -/
def notes : Loader where
  options := {}
  schema := ⟨[{ name := "id", type := .int64, notNull := true }, { name := "note", type := .text },
    { name := "done", type := .bool }]⟩

/-- A note with everything in it that is quoted, and one of NULLs. The
load writes them into a table as they were. -/
theorem reload_stored_notes :
    let rows := [.ofValues [.int64 Int64.minValue, .ofString " \"a\",\r\nü", .bool true],
      .ofValues [.int64 7, .null, .null]]
    let file := rows.flatMap Row.fileLine
    (∀ row ∈ rows, row.Lossless notes.schema) ∧
      file = Bytes.ofString "-9223372036854775808,\" \"\"a\"\",\r\nü\",true\n7,,\n" ∧
      (∃ f d₁, CsvFile.openAt "notes.csv" {} = (.ok f, d₁) ∧ d₁.bytesAt f.name = [] ∧
        ∃ x₁ d₂ x₂ d₃ bs, ({ medium := .file f } : Storage).insertAll .old d₁ rows
            = (.ok [.inserted, .inserted], x₁, d₂) ∧
          x₁.finish d₂ = (.ok (), x₂, d₃) ∧ d₃.openToRead "notes.csv" = .ok (.ok bs) ∧
          ∀ cuts, notes.Restores rows (.bytes { rest := bs, cuts := cuts })) ∧
      (notes.run LocalWriter.writer (.bytes { rest := file, cuts := [] })
        (tableWriter fun _ _ => none) {}).2.1.storage.table?.map Table.rows = some rows := by
  intro rows file
  have hfirst : (Row.ofValues [.int64 Int64.minValue, .ofString " \"a\",\r\nü",
      .bool true]).Lossless notes.schema :=
    ⟨.cons (.value (.int64 _)) (.cons (.value (.text (by decide +kernel) ⟨_, rfl⟩))
      (.cons (.value (.bool true)) .nil)), rfl⟩
  have hsecond : (Row.ofValues [.int64 7, .null, .null]).Lossless notes.schema :=
    ⟨.cons (.value (.int64 7)) (.cons (.null rfl) (.cons (.null rfl) .nil)), rfl⟩
  have hrows : ∀ row ∈ rows, row.Lossless notes.schema :=
    List.forall_mem_cons.mpr ⟨hfirst, List.forall_mem_singleton.mpr hsecond⟩
  obtain ⟨f, d₁, hopen, hempty⟩ : ∃ f d₁, CsvFile.openAt "notes.csv" {} = (.ok f, d₁) ∧
      d₁.bytesAt f.name = [] := by
    refine ⟨{ name := "notes.csv" }, ({} : Directory).put "notes.csv" [], ?_, by decide +kernel⟩
    with_unfolding_all rfl
  have hreload := reload_stored (l := notes) rfl rfl (by decide) hrows hopen hempty .old
  exact ⟨hrows, by decide +kernel, ⟨f, d₁, hopen, hempty, hreload⟩, by decide +kernel⟩

end Loader
end Intake
