import Intake.Proofs.Record.Ends
import Intake.Proofs.Record.Written
/-!
# Reading what is quoted only where it must be

The loader writes records in a form of its own (`Csv.line`): a field is
quoted if it has a comma, a quote or a line end in it, and is bare if not.
A reader of comma-separated input gets the fields of such lines back, and
takes the ones without bytes for NULL (`Csv.delivers_line`).

Quoted fields have the marks of fields that are written with quotes
around all of them, and the byte of a bare one stands for itself: it is
one of those that need no quotes. What stands behind a field is a comma or
a line feed, so that no quote is taken for the first of two.

A record without any byte is left out. It is written as a pair of quotes,
which is read as a field that is empty and not NULL.
-/

namespace Intake
namespace Csv

open Dialect (Mark Run csv)

/-- A field as it is read back: NULL if it has no bytes. -/
def restored (field : Bytes) : Field := ⟨field, field.isEmpty⟩

/-- The records of lines, after `count` others. -/
def lineRecords (count : Nat) (lines : List (List Bytes)) : List Record :=
  (lines.zipIdx (count + 1)).map fun (fields, number) =>
    { number := number, raw := line fields, fields := fields.map restored }

/-! ## The marks of what is written -/

/-- The marks of a field. -/
def fieldMarks (field : Bytes) : List Mark :=
  if needsQuotes field then csv.fieldMarks quote field else field.map fun b => .content [b] b

/-- The marks of a record's fields. -/
def lineMarks : List Bytes → List Mark
  | [] => []
  | f :: fs => fieldMarks f ++ fs.flatMap fun g => .divider [comma] :: fieldMarks g

section Fields

variable {field : Bytes} {fields : List Bytes} {rest : Bytes}

/-- Within quotes a field is written as everywhere. -/
theorem writeField_eq (field : Bytes) :
    csv.writeField quote field = quote :: doubled field ++ [quote] := by
  have hbyte : csv.writeByte quote = fun b => if b == quote then [b, b] else [b] := by
    funext b
    have hescape : csv.escape.getD quote = quote := rfl
    simp only [Dialect.writeByte, hescape, or_self, beq_iff_eq]
    split
    · next hb => rw [hb]
    · rfl
  rw [Dialect.writeField, hbyte]
  rfl

/-- The bytes of a bare field are none of those that mean anything. -/
theorem ne_of_bare (h : needsQuotes field = false) {b : UInt8} (hb : b ∈ field) :
    b ≠ comma ∧ b ≠ quote ∧ b ≠ lineFeed ∧ b ≠ carriageReturn := by
  have hnone := List.any_eq_false.mp h b hb
  simpa [not_or, and_assoc] using hnone

theorem isDivider_of_mem_fieldMarks {m : Mark} (h : m ∈ fieldMarks field) :
    m.isDivider = false := by
  unfold fieldMarks at h
  split at h
  · exact Dialect.isDivider_of_mem_fieldMarks h
  · obtain ⟨b, -, rfl⟩ := List.mem_map.mp h
    rfl

theorem read_fieldMarks (field : Bytes) :
    (fieldMarks field).flatMap Mark.read = encodeField field := by
  unfold fieldMarks encodeField
  split
  · rw [Dialect.read_fieldMarks, writeField_eq]
  · rw [List.flatMap_map]
    exact List.flatMap_singleton' field

theorem stands_fieldMarks (field : Bytes) :
    (fieldMarks field).filterMap Mark.stands? = field := by
  unfold fieldMarks
  split
  · exact Dialect.stands_fieldMarks field
  · rw [List.filterMap_map]
    exact List.filterMap_some

theorem encodeField_eq_nil : encodeField field = [] ↔ field = [] := by
  unfold encodeField
  split
  · next hquotes =>
    refine ⟨nofun, ?_⟩
    rintro rfl
    cases hquotes
  · rfl

/-- **A field is read back**, and is NULL exactly if it has no bytes. -/
theorem fieldOf_fieldMarks (field : Bytes) :
    csv.fieldOf false (fieldMarks field) = restored field := by
  have hnull : (encodeField field == []) = field.isEmpty := by
    rw [Bool.eq_iff_iff, beq_iff_eq, encodeField_eq_nil, List.isEmpty_iff]
  show (⟨(fieldMarks field).filterMap Mark.stands?,
    !false && (fieldMarks field).flatMap Mark.read == []⟩ : Field) = _
  rw [stands_fieldMarks, read_fieldMarks, hnull]
  rfl

theorem lineMarks_eq (fields : List Bytes) :
    lineMarks fields = [Mark.divider csv.delimiter].intercalate (fields.map fieldMarks) := by
  cases fields with
  | nil => rfl
  | cons f fs =>
    rw [List.map_cons, intercalate_cons, List.flatMap_map]
    rfl

theorem encodeFields_eq (fields : List Bytes) :
    encodeFields fields = csv.delimiter.intercalate (fields.map encodeField) := by
  cases fields with
  | nil => rfl
  | cons f fs =>
    rw [List.map_cons, intercalate_cons, List.flatMap_map]
    rfl

/-- The fields of a record are read back where none is forced. -/
theorem fieldsOf_lineMarks {forced : List Bool} (hforced : ∀ flag ∈ forced, flag = false)
    (f : Bytes) (fs : List Bytes) :
    csv.fieldsOf forced (lineMarks (f :: fs)) = (f :: fs).map restored := by
  rw [lineMarks_eq]
  refine Dialect.fieldsOf_joined (List.cons_ne_nil f fs)
    (fun _ _ hm => isDivider_of_mem_fieldMarks hm) (fun g _ force hforce => ?_) _
  cases force with
  | false => exact fieldOf_fieldMarks g
  | true => cases hforced true (hforce rfl)

/-! ## They are a run -/

theorem usable_csv : csv.Usable := Dialect.usable_of_check rfl

/-- A bare field, whatever comes behind it. -/
theorem run_bare (h : needsQuotes field = false) (rest : Bytes) :
    csv.Run false (field.map fun b => .content [b] b) false rest (field ++ rest) := by
  induction field with
  | nil => exact .nil
  | cons b field ih =>
    obtain ⟨hcomma, hquote, hfeed, hreturn⟩ := ne_of_bare h List.mem_cons_self
    have hrest : needsQuotes field = false := (Bool.or_eq_false_iff.mp h).2
    have hdivider : csv.delimiter ≠ [] → ¬ csv.delimiter <+: b :: (field ++ rest) := by
      rintro - hlead
      exact hcomma (List.cons_prefix_cons.mp hlead).1.symm
    have hplain : csv.Front false (.content [b] b) (field ++ rest) (b :: (field ++ rest)) :=
      .plain hdivider (fun heq => hquote (Option.some.inj heq)) fun heq => nomatch heq
    exact .cons hplain (.inr (Dialect.stopAt_eq_nil ⟨hfeed, hreturn⟩ _)) (ih hrest)

theorem run_fieldMarks (field : Bytes) (hrest : rest.head? ≠ some quote) :
    csv.Run false (fieldMarks field) false rest (encodeField field ++ rest) := by
  unfold fieldMarks encodeField
  split
  · have hrun := Dialect.run_field usable_csv (q := quote) rfl field hrest
    rw [writeField_eq] at hrun
    exact hrun
  · next hbare => exact run_bare (Bool.not_eq_true _ ▸ hbare) rest

theorem run_lineMarks (fields : List Bytes) (hrest : rest.head? ≠ some quote) :
    csv.Run false (lineMarks fields) false rest (encodeFields fields ++ rest) := by
  rw [lineMarks_eq, encodeFields_eq]
  refine usable_csv.run_joined fields fun f after hafter => run_fieldMarks f ?_
  rcases hafter with rfl | hcomma
  · exact hrest
  · exact Dialect.head?_ne_quote usable_csv rfl hcomma

theorem head?_nil_ne_quote : ([] : Bytes).head? ≠ some quote := nofun

theorem read_lineMarks (fields : List Bytes) :
    (lineMarks fields).flatMap Mark.read = encodeFields fields := by
  have hread := (run_lineMarks fields head?_nil_ne_quote).read_append
  rwa [List.append_nil, List.append_nil] at hread

end Fields

/-! ## What a pass finds -/

section Lines

variable {fields : List Bytes}

theorem line_eq (h : encodeFields fields ≠ []) :
    line fields = encodeFields fields ++ [lineFeed] := by
  rw [line, if_neg (by simpa using h)]

/-- A record of two fields has a byte: the comma. -/
theorem encodeFields_ne_nil (h : 2 ≤ fields.length) : encodeFields fields ≠ [] := by
  match fields, h with
  | f :: g :: fs, _ => simp [encodeFields]

/-- **A line is divided into the fields that it was written from.** -/
theorem split_line {forced : List Bool} (hforced : ∀ flag ∈ forced, flag = false)
    (hbody : encodeFields fields ≠ []) :
    split csv forced (stripEnd (line fields)) = fields.map restored := by
  cases fields with
  | nil => exact absurd rfl hbody
  | cons f fs =>
    have hrun := run_lineMarks (f :: fs) head?_nil_ne_quote
    have hlast := hrun.getLast?_ne usable_csv rfl (.inl rfl)
    rw [read_lineMarks] at hlast
    rw [line_eq hbody, Dialect.stripEnd_lineFeed hlast,
      Dialect.split_eq_fieldsOf usable_csv.some_delimiter, ← read_lineMarks, hrun.splitMarks_eq,
      fieldsOf_lineMarks hforced]

/-- A line comes to its record. -/
theorem recordOf_lineMarks {forced : List Bool} (hforced : ∀ flag ∈ forced, flag = false)
    (hbody : encodeFields fields ≠ []) (number : Nat) :
    csv.recordOf forced number (lineMarks fields) [lineFeed]
      = { number := number, raw := line fields, fields := fields.map restored } := by
  cases fields with
  | nil => exact absurd rfl hbody
  | cons f fs =>
    rw [Dialect.recordOf, read_lineMarks, fieldsOf_lineMarks hforced, line_eq hbody]
    rfl

/-- **A line is the next record.** -/
theorem transcribeFrom_line {forced : List Bool} (hforced : ∀ flag ∈ forced, flag = false)
    (hbody : encodeFields fields ≠ []) (count : Nat) (rest : Bytes) :
    csv.transcribeFrom forced count false [] (line fields ++ rest)
      = (csv.transcribeFrom forced (count + 1) false [] rest).cons
          { number := count + 1, raw := line fields, fields := fields.map restored } := by
  have hfeed : (lineFeed :: rest).head? ≠ some quote := by
    show some lineFeed ≠ some quote
    decide
  have hrun := run_lineMarks fields hfeed
  rw [← recordOf_lineMarks hforced hbody, line_eq hbody, List.append_assoc, List.singleton_append,
    hrun.transcribeFrom_eq, List.nil_append]
  exact Dialect.transcribeFrom_stop (b := lineFeed) nofun

/-- **A pass over lines finds their records.** -/
theorem transcribeFrom_lines {forced : List Bool} (hforced : ∀ flag ∈ forced, flag = false)
    {lines : List (List Bytes)} (hbodies : ∀ fields ∈ lines, encodeFields fields ≠ [])
    (count : Nat) :
    csv.transcribeFrom forced count false [] (lines.flatMap line)
      = { records := lineRecords count lines, unclosed := none } := by
  induction lines generalizing count with
  | nil =>
    rw [List.flatMap_nil, Dialect.transcribeFrom]
    rfl
  | cons fields lines ih =>
    obtain ⟨hbody, hrest⟩ := List.forall_mem_cons.mp hbodies
    rw [List.flatMap_cons, transcribeFrom_line hforced hbody, ih hrest]
    rfl

/-- How reading ends that stops short at the first line of `limit` bytes or
more. -/
def linesEnd (limit : Nat) (lines : List (List Bytes)) : Except LoadError Unit :=
  let fitting := lines.takeWhile fun fields => (line fields).length < limit
  if fitting.length < lines.length then .error (.recordTooLarge (fitting.length + 1) limit)
  else .ok ()

/-- The same where the lines are those of some items. -/
theorem linesEnd_map {α : Type} (limit : Nat) (cells : α → List Bytes) (xs : List α) :
    let fitting := xs.takeWhile fun x => (line (cells x)).length < limit
    linesEnd limit (xs.map cells) = if fitting.length < xs.length
      then .error (.recordTooLarge (fitting.length + 1) limit) else .ok () := by
  intro fitting
  have hlines : (xs.map cells).takeWhile (fun fields => (line fields).length < limit)
      = fitting.map cells := List.takeWhile_map ..
  unfold linesEnd
  dsimp only
  rw [hlines, List.length_map, List.length_map]

/-- The records of the lines that fit are the records that fit. -/
theorem takeWhile_lineRecords (limit count : Nat) (lines : List (List Bytes)) :
    (lineRecords count lines).takeWhile (·.raw.length < limit)
      = lineRecords count (lines.takeWhile fun fields => (line fields).length < limit) := by
  induction lines generalizing count with
  | nil => rfl
  | cons fields lines ih =>
    have hcons : ∀ lines, lineRecords count (fields :: lines)
        = { number := count + 1, raw := line fields, fields := fields.map restored }
          :: lineRecords (count + 1) lines := fun _ => rfl
    rw [hcons, List.takeWhile_cons, List.takeWhile_cons]
    by_cases hfits : (line fields).length < limit
    · rw [if_pos (decide_eq_true hfits), if_pos (decide_eq_true hfits), ih, hcons]
    · rw [if_neg (by simpa using hfits), if_neg (by simpa using hfits)]
      rfl

theorem stop_lineRecords (limit : Nat) (lines : List (List Bytes)) :
    (Transcript.mk (lineRecords 0 lines) none).stop limit 0
      = (linesEnd limit lines).map fun _ => none := by
  have hlength : ∀ lines, (lineRecords 0 lines).length = lines.length := by
    simp [lineRecords]
  unfold Transcript.stop linesEnd
  dsimp only
  rw [takeWhile_lineRecords, hlength, hlength, Nat.zero_add]
  split <;> rfl

theorem linesEnd_ne_some (limit : Nat) (lines : List (List Bytes)) (x : Record) :
    (linesEnd limit lines).map (fun _ => none) ≠ .ok (some x) := by
  unfold linesEnd
  dsimp only
  split <;> exact nofun

/-- **Reading undoes writing.** Lines of records, each of them with some
byte, are read back up to the first that is too long, with the fields that
were written; those without bytes are NULL. It does not matter how the
source cuts its reads. -/
theorem delivers_line {forced : List Bool} (hforced : ∀ flag ∈ forced, flag = false)
    {lines : List (List Bytes)} (hbodies : ∀ fields ∈ lines, encodeFields fields ≠ [])
    (cuts : List Cut) (size limit : Nat) :
    (RecordReader.delimited
      { source := { rest := lines.flatMap line, cuts := cuts }, buffer := .ofSizes size limit,
        dialect := csv, forced := forced }).Delivers
      (lineRecords 0 (lines.takeWhile fun fields => (line fields).length < max 2 (max size limit)))
      (linesEnd (max 2 (max size limit)) lines) := by
  have hpass : csv.transcribeFrom forced 0 false [] (lines.flatMap line)
      = (csv.divide (lines.flatMap line)).transcript csv forced 0 :=
    (Dialect.transcribeFrom_eq_transcript usable_csv rfl (lines.flatMap line)).1
  rw [transcribeFrom_lines hforced hbodies] at hpass
  have hquoted : (csv.divide (lines.flatMap line)).region.isQuoted = true →
      (csv.divide (lines.flatMap line)).tail ≠ [] :=
    @Dialect.tail_ne_nil csv .outside [] nofun (lines.flatMap line)
  rw [← Buffer.max_ofSizes size limit]
  have houtcomes := Division.outcomes_eq_transcript csv forced (Buffer.ofSizes size limit).max 0
    (csv.divide (lines.flatMap line)) hquoted
  rw [← hpass, Transcript.outcomes, takeWhile_lineRecords, stop_lineRecords] at houtcomes
  have hdelivers := DelimitedReader.delivers_of_expected
    (DelimitedReader.ready_start (lines.flatMap line) cuts csv forced size limit)
    (linesEnd_ne_some (Buffer.ofSizes size limit).max lines) houtcomes
  generalize linesEnd (Buffer.ofSizes size limit).max lines = stop at hdelivers ⊢
  cases stop <;> exact hdelivers

end Lines
end Csv
end Intake
