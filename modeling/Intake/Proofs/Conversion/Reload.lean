import Mathlib.Data.List.Forall2
import Intake.Proofs.Conversion.Spelling
import Intake.Proofs.Conversion.WellFormed
import Intake.Proofs.Record.Minimal
/-!
# Rows from their own records

A row is taken apart into the bytes of its values and put together again
from them: a record whose fields are the values of a row, as a file has
them, is accepted as that row (`Rules.judge_restored`). The row must be
one that its table may hold and that a file can tell apart
(`Row.Lossless`): NULL only where it is allowed, and no text that is empty
or not UTF-8.

Column by column, each field is stored as the value that it was; the check
then finds nothing to object to and changes nothing.
-/

namespace Intake

/-- A value that a column may hold and that a file can tell apart. -/
inductive Column.Admits (c : Column) : Value → Prop where
  | null (allowed : c.notNull = false) : Admits c .null
  | value {v : Value} (spelled : v.Spelled c.type) : Admits c v

/-- A row that its table may hold and that a file can tell apart. -/
structure Row.Lossless (schema : Schema) (row : Row) : Prop where
  values : List.Forall₂ Column.Admits schema.columns row.values
  flagged : row.Flagged

/-- The value of a column is one that it may hold. -/
theorem Row.Lossless.admits {schema : Schema} {row : Row} (h : row.Lossless schema) {i : Nat}
    (hi : i < schema.columns.length) (hi' : i < row.values.length) :
    schema.columns[i].Admits row.values[i] :=
  (List.forall₂_iff_get.mp h.values).2 i hi hi'

theorem Row.Lossless.width_eq {schema : Schema} {row : Row} (h : row.Lossless schema) :
    row.width = schema.width :=
  h.values.length_eq.symm

/-- The fields that a row is read back from. -/
def Row.restored (row : Row) : List Field := (row.values.map Value.bytes).map Csv.restored

namespace Column.Admits

variable {column : Column} {v : Value}

/-- **A value is stored in its column again.** -/
theorem putField_restored (h : column.Admits v) (row : Row) (record i : Nat) :
    row.putField .plain record i column (Csv.restored v.bytes)
      = { outcome := .ok (), row := row.set i v } := by
  cases h with
  | null => rfl
  | value spelled =>
    have hcontent : (Csv.restored v.bytes).content? = some v.bytes := by
      have hsome : v.bytes.isEmpty = false := List.isEmpty_eq_false_iff.mpr spelled.bytes_ne_nil
      rw [Csv.restored, Field.content?, hsome, if_neg Bool.false_ne_true]
    unfold Row.putField
    rw [hcontent]
    dsimp only
    by_cases htext : column.type = .text
    · rw [htext] at spelled
      rw [htext]
      cases spelled
      rfl
    · have hcharacter : column.type.isCharacter = false := by
        cases htype : column.type with
        | text => exact absurd htype htext
        | _ => rfl
      have hanswer : (Catalog.plain.read column v.bytes).answer = .ok v := spelled.read_bytes
      rw [hcharacter, if_neg Bool.false_ne_true, hanswer]
      rfl

/-- Character data in a column is UTF-8. -/
theorem wellFormed {bs : Bytes} (h : column.Admits (.text bs)) : Utf8.WellFormed bs := by
  obtain ⟨-⟩ | ⟨spelled⟩ := h
  generalize column.type = t at spelled
  cases spelled with
  | text some utf8 => exact utf8

/-- A column that refuses NULL holds something else. -/
theorem isNull_eq_false (h : column.Admits v) (hnot : column.notNull = true) :
    v.isNull = false := by
  cases h with
  | null allowed => cases allowed.symm.trans hnot
  | value spelled => exact spelled.isNull_eq_false

end Column.Admits

namespace Row

/-- **Column by column the values come back**, behind what is stored
already. -/
theorem putFields_restored {columns : List Column} {values : List Value}
    (h : List.Forall₂ Column.Admits columns values) (record : Nat) {i : Nat} {row : Row}
    (hrow : row.Shaped (i + columns.length)) :
    row.putFields .plain record i columns ((values.map Value.bytes).map Csv.restored) []
      = { outcome := .ok ()
          row := ⟨row.values.take i ++ values, row.nulls.take i ++ values.map Value.isNull⟩ } := by
  induction h generalizing i row with
  | nil =>
    have hvalues : row.values.take i = row.values :=
      List.take_of_length_le (Nat.le_of_eq hrow.values)
    have hnulls : row.nulls.take i = row.nulls :=
      List.take_of_length_le (Nat.le_of_eq hrow.nulls)
    rw [List.append_nil, hvalues, List.map_nil (f := Value.isNull), List.append_nil, hnulls]
    rfl
  | @cons column v columns values hfirst _ ih =>
    rw [List.length_cons] at hrow
    have hvalues : i < row.values.length := hrow.values ▸ by omega
    have hnulls : i < row.nulls.length := hrow.nulls ▸ by omega
    have hnext : row.putNext .plain record i column
        (((v :: values).map Value.bytes).map Csv.restored)
        = { outcome := .ok (), row := row.set i v } := hfirst.putField_restored row record i
    have hset : (row.set i v).Shaped (i + 1 + columns.length) := by
      rw [Nat.add_right_comm, Nat.add_assoc]
      exact hrow.set i v
    have htake : (row.set i v).values.take (i + 1) = row.values.take i ++ [v] :=
      take_succ_set hvalues v
    have htake' : (row.set i v).nulls.take (i + 1) = row.nulls.take i ++ [v.isNull] :=
      take_succ_set hnulls v.isNull
    rw [putFields_cons, hnext]
    show (row.set i v).putFields .plain record (i + 1) columns
      ((values.map Value.bytes).map Csv.restored) [] = _
    rw [ih hset, htake, htake', List.append_assoc, List.append_assoc]
    rfl

variable {schema : Schema} {row : Row}

theorem build_restored (h : row.Lossless schema) (number : Nat) (raw : Bytes) :
    (blank schema.width).build schema .plain
        { number := number, raw := raw, fields := row.restored }
      = { outcome := .ok (), row := row } := by
  have hlength : row.restored.length = schema.width := by
    rw [restored, List.length_map, List.length_map]
    exact h.width_eq
  have hblank : (blank schema.width).Shaped (0 + schema.columns.length) := by
    rw [Nat.zero_add]
    exact shaped_blank schema.width
  have hput := putFields_restored h.values number hblank
  have hsame : (⟨row.values, row.values.map Value.isNull⟩ : Row) = row := by
    rw [← h.flagged]
  unfold build
  dsimp only
  rw [hlength, if_neg (Nat.lt_irrefl _), if_pos (width_blank _)]
  rw [List.take_zero, List.take_zero, List.nil_append, List.nil_append, hsame] at hput
  exact hput

end Row

namespace Rules

variable {r : Rules} {row : Row}

/-- No column that refuses NULL has it. -/
theorem nullViolation?_of_lossless (h : row.Lossless r.schema) : r.nullViolation? row = none := by
  refine List.findSome?_eq_none_iff.mpr fun ⟨column, i⟩ hmem => ?_
  have hcolumn : r.schema.columns[i]? = some column := List.mem_zipIdx_iff_getElem?.mp hmem
  dsimp only
  cases hnot : column.notNull with
  | false => rfl
  | true =>
    obtain ⟨hi, rfl⟩ := List.getElem?_eq_some_iff.mp hcolumn
    have hi' : i < row.values.length := h.values.length_eq ▸ hi
    have hflag : row.isNull i = false := by
      rw [Row.isNull, h.flagged, List.getD_eq_getElem?_getD, List.getElem?_map,
        List.getElem?_eq_getElem hi']
      exact (h.admits hi hi').isNull_eq_false hnot
    rw [hflag]
    rfl

/-- **A record of a row's own fields is accepted as the row**, and asks for
nothing. -/
theorem judge_restored (hcatalog : r.catalog = .plain) (hencoding : r.encoding = .utf8)
    (h : row.Lossless r.schema) (number : Nat) (raw : Bytes) :
    r.judge { number := number, raw := raw, fields := row.restored }
      = { outcome := .ok (), row := row } := by
  have htext : ∀ bs, .text bs ∈ row.values → Utf8.WellFormed bs := by
    intro bs hbs
    obtain ⟨i, hi', hvalue⟩ := List.mem_iff_getElem.mp hbs
    have hi : i < r.schema.columns.length := h.values.length_eq.symm ▸ hi'
    have hadmits := h.admits hi hi'
    rw [hvalue] at hadmits
    exact hadmits.wellFormed
  have hstored := storeValues_of_wellFormed (by rw [hencoding]; rfl) htext number 0
  have hvalid : r.validate number row = { outcome := .ok (), row := row } := by
    cases hasked : r.checkConstraints with
    | false => exact (Validated.unasked hstored (nullViolation?_of_lossless h) hasked).eq
    | true =>
      have hcheck := Validated.answered (r := r) hstored (nullViolation?_of_lossless h) hasked rfl
      rw [hcatalog] at hcheck
      exact hcheck.eq
  unfold judge attempt
  rw [hcatalog, Row.build_restored h number raw]
  dsimp only
  rw [hvalid]
  rfl

end Rules
end Intake
