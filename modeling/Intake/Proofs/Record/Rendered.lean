import Intake.Proofs.Record.Minimal
/-!
# Reading what rows leave

Rows that come from outside have no bytes of their own. Each is given a
line of comma-separated text, which is what a rejected row leaves in a
file, and that file can be loaded in turn: a reader of comma-separated
input finds a record for each row, with as many fields
(`RowReader.reads_back`). What is lost is the difference between a value
without bytes and none at all. Both are NULL afterwards.

Rows of one field are left out, since one without bytes is written as a
pair of quotes, which is read as a value. From two fields on each line has
a comma.
-/

namespace Intake

/-- The records that a reader of comma-separated input of `most` bytes at a
time finds in the lines of rows, and how it ends. -/
structure ReadBack (most : Nat) (rows : List SourceRow) (xs ys : List Record)
    (stop : Except LoadError Unit) : Prop where
  /-- They have the lines of the rows before the first that is too long. -/
  raw : ys.map Record.raw = (xs.map Record.raw).takeWhile (·.length < most)
  /-- A field has the bytes of its value, and is NULL if there are none. -/
  content : (ys.map fun y => y.fields.map Field.content?)
    = (rows.take ys.length).map fun row => row.map (Option.filter fun bs => !bs.isEmpty)
  whole : (∀ x ∈ xs, x.raw.length < most) → ys.length = rows.length ∧ stop = .ok ()
  part : (∃ x ∈ xs, most ≤ x.raw.length) → stop = .error (.recordTooLarge (ys.length + 1) most)

/-! ## Lines -/

namespace Csv

/-- The fields of a row as they are written. -/
def cells (row : SourceRow) : List Bytes := row.map fun v => v.getD []

/-- A value without bytes and none at all are read alike. -/
theorem content?_restored (v : Option Bytes) :
    (restored (v.getD [])).content? = v.filter fun bs => !bs.isEmpty := by
  cases v with
  | none => rfl
  | some bs => cases bs <;> rfl

theorem raw_lineRecords (count : Nat) (lines : List (List Bytes)) :
    (lineRecords count lines).map Record.raw = lines.map line := by
  rw [lineRecords, List.map_map]
  apply map_zipIdx_eq_map
  intro _
  rfl

theorem fields_lineRecords (count : Nat) (lines : List (List Bytes)) :
    (lineRecords count lines).map Record.fields = lines.map (List.map restored) := by
  rw [lineRecords, List.map_map]
  apply map_zipIdx_eq_map
  intro _
  rfl

end Csv

/-! ## Rows -/

namespace RowReader

/-- The records of rows, after `count` others. -/
def records (count : Nat) (rows : List SourceRow) : List Record :=
  (rows.zipIdx (count + 1)).map fun (row, number) => record number row

/-- Every row is a record. -/
theorem delivers_records (count : Nat) (rows : List SourceRow) :
    (RecordReader.rows { source := rows.map .ok, count := count }).Delivers
      (records count rows) (.ok ()) := by
  induction rows generalizing count with
  | nil => exact ⟨_, _, .nil _, rfl⟩
  | cons row rows ih =>
    obtain ⟨last, final, hyields, hend⟩ := ih (count + 1)
    exact ⟨last, final, .cons rfl hyields, hend⟩

theorem raw_records (count : Nat) (rows : List SourceRow) :
    (records count rows).map Record.raw = (rows.map Csv.cells).map Csv.line := by
  rw [records, List.map_map, List.map_map]
  apply map_zipIdx_eq_map
  intro _
  rfl

/-- The rows whose lines fit, up to the first whose line does not. -/
def fitting (most : Nat) (rows : List SourceRow) : List SourceRow :=
  rows.takeWhile fun row => (Csv.line (Csv.cells row)).length < most

theorem fitting_eq_take (most : Nat) (rows : List SourceRow) :
    rows.take (fitting most rows).length = fitting most rows :=
  (List.prefix_iff_eq_take.mp (List.takeWhile_prefix _)).symm

/-- All rows are among them exactly if all records are short enough. -/
theorem fitting_eq_self_iff (most : Nat) (rows : List SourceRow) :
    fitting most rows = rows ↔ ∀ x ∈ records 0 rows, x.raw.length < most := by
  rw [← List.forall_mem_map (f := Record.raw) (P := fun raw => raw.length < most), raw_records,
    List.forall_mem_map, List.forall_mem_map, fitting, List.takeWhile_eq_self_iff]
  simp only [decide_eq_true_eq]

theorem linesEnd_cells (most : Nat) (rows : List SourceRow) :
    Csv.linesEnd most (rows.map Csv.cells) = if (fitting most rows).length < rows.length
      then .error (.recordTooLarge ((fitting most rows).length + 1) most) else .ok () :=
  Csv.linesEnd_map most Csv.cells rows

/-- The records of the lines that fit are what is read back. -/
theorem readBack_lineRecords (most : Nat) (rows : List SourceRow) :
    ReadBack most rows (records 0 rows)
      (Csv.lineRecords 0 ((fitting most rows).map Csv.cells))
      (Csv.linesEnd most (rows.map Csv.cells)) := by
  have hlength : (Csv.lineRecords 0 ((fitting most rows).map Csv.cells)).length
      = (fitting most rows).length := by
    simp [Csv.lineRecords]
  refine ⟨?_, ?_, ?_, ?_⟩
  · rw [Csv.raw_lineRecords, raw_records, List.takeWhile_map, List.takeWhile_map]
    rfl
  · have hcontent := congrArg (List.map (List.map Field.content?))
      (Csv.fields_lineRecords 0 ((fitting most rows).map Csv.cells))
    rw [List.map_map] at hcontent
    rw [hlength, fitting_eq_take]
    refine hcontent.trans ?_
    rw [List.map_map, List.map_map]
    refine List.map_congr_left fun row _ => ?_
    show ((row.map fun v => v.getD []).map Csv.restored).map Field.content? = _
    rw [List.map_map, List.map_map]
    exact List.map_congr_left fun v _ => Csv.content?_restored v
  · intro hfits
    have hall := (fitting_eq_self_iff most rows).mpr hfits
    rw [hlength, linesEnd_cells, hall, if_neg (Nat.lt_irrefl _)]
    exact ⟨rfl, rfl⟩
  · rintro ⟨x, hx, hlong⟩
    have hprefix : fitting most rows <+: rows := List.takeWhile_prefix _
    have hshort : (fitting most rows).length < rows.length := by
      by_contra hall
      have hall := hprefix.eq_of_length_le (Nat.not_lt.mp hall)
      exact Nat.not_le_of_lt ((fitting_eq_self_iff most rows).mp hall x hx) hlong
    rw [hlength, linesEnd_cells, if_pos hshort]

/-- **The lines of rows are read back.** The records that rows of at least
two fields make have raw bytes that, one after another, a reader of
comma-separated input takes for as many records: a field has its value's
bytes if there are any, and is NULL if there are none, because the value
was empty or NULL. It does not matter what bytes the values have or how the
reads are cut. A reader whose arena is too small for one of the lines, as
the one of default options is for 2^30 bytes, gets as far as that line and
refuses it. -/
theorem reads_back {rows : List SourceRow} (hrows : ∀ row ∈ rows, 2 ≤ row.length)
    (cuts : List Cut) (columns size limit : Nat) :
    ∃ xs ys stop, (RecordReader.rows { source := rows.map .ok }).Delivers xs (.ok ()) ∧
      xs.length = rows.length ∧
      (RecordReader.delimited
        { source := { rest := xs.flatMap Record.raw, cuts := cuts }
          buffer := .ofSizes size limit, dialect := .csv
          forced := List.replicate columns false }).Delivers ys stop ∧
      ReadBack (max 2 (max size limit)) rows xs ys stop := by
  have hbodies : ∀ fields ∈ rows.map Csv.cells, Csv.encodeFields fields ≠ [] := by
    intro fields hfields
    obtain ⟨row, hrow, rfl⟩ := List.mem_map.mp hfields
    apply Csv.encodeFields_ne_nil
    rw [Csv.cells, List.length_map]
    exact hrows row hrow
  have hforced : ∀ flag ∈ List.replicate columns false, flag = false :=
    fun _ => List.eq_of_mem_replicate
  have hdelivers := Csv.delivers_line hforced hbodies cuts size limit
  have hraws : (rows.map Csv.cells).flatMap Csv.line = (records 0 rows).flatMap Record.raw := by
    rw [List.flatMap_def, List.flatMap_def, raw_records]
  rw [hraws, List.takeWhile_map] at hdelivers
  refine ⟨_, _, _, delivers_records 0 rows, ?_, hdelivers, readBack_lineRecords _ rows⟩
  rw [records, List.length_map, List.length_zipIdx]

/-- Values that are quoted, NULL and empty ones, and a carriage return that
would be stripped if its field were bare. -/
theorem reads_back_values :
    let rows : List SourceRow :=
      [[some (Bytes.ascii "a,\"b\""), none, some (Bytes.ascii "\r\n")],
        [some [], some (Bytes.ascii "c\r")]]
    let input := Bytes.ascii "\"a,\"\"b\"\"\",,\"\r\n\"\n,\"c\r\"\n"
    (∀ row ∈ rows, 2 ≤ row.length) ∧ (records 0 rows).flatMap Record.raw = input ∧
      ∃ ys, (RecordReader.delimited
          { source := { rest := input, cuts := [.atMost 5, .interrupted, .atMost 9] }
            buffer := .ofSizes 2 32, dialect := .csv, forced := [false, false] }).Delivers ys
            (.ok ()) ∧
        (ys.map fun y => y.fields.map Field.content?)
          = [[some (Bytes.ascii "a,\"b\""), none, some (Bytes.ascii "\r\n")],
              [none, some (Bytes.ascii "c\r")]] := by
  intro rows input
  have hrows : ∀ row ∈ rows, 2 ≤ row.length := by decide
  have hinput : (records 0 rows).flatMap Record.raw = input := by decide
  obtain ⟨xs, ys, stop, hxs, -, hys, hback⟩ :=
    reads_back hrows [.atMost 5, .interrupted, .atMost 9] 2 2 32
  obtain ⟨rfl, -⟩ := hxs.unique (delivers_records 0 rows)
  obtain ⟨hlength, rfl⟩ := hback.whole (by decide)
  have hcontent := hback.content
  rw [hinput] at hys
  rw [hlength] at hcontent
  exact ⟨hrows, hinput, ys, hys, hcontent.trans (by decide)⟩

end RowReader
end Intake
