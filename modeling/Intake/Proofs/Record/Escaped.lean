import Intake.Proofs.Record.Ends
import Intake.Proofs.Record.Written
/-!
# Reading what was written with escapes

Where there are no quotes, fields of any bytes can still be written: what
would mean something is put behind an escape, line ends as letters and
everything else as it is (`Dialect.escapeLine`). A reader of the dialect
gets the fields back (`DelimitedReader.delivers_escapeLine`).

Two things could go wrong, and the check of a dialect sees to one of them.
A byte behind an escape may be read as another: the letters of the line
ends and of four other bytes are, and none of these can be in a delimiter,
because lower-case letters are refused there. The escape itself may be one
of them, and that has to be ruled out (`Dialect.Escaping.letter`). The
other is the carriage return that is stripped from the end of a record:
there is none in what is written.

A field that is written as the NULL marker is read as NULL. Whether there
is one depends on the marker alone.
-/

namespace Intake
namespace Dialect

/-! ## Writing -/

/-- A byte of a field as it is written behind an escape, or by itself if
it means nothing. -/
def escapeByte (d : Dialect) (e b : UInt8) : Bytes :=
  if b = Csv.lineFeed then [e, 0x6E]
  else if b = Csv.carriageReturn then [e, 0x72]
  else if b = e ∨ b ∈ d.delimiter then [e, b]
  else [b]

/-- A field as it is written. -/
def escapeField (d : Dialect) (e : UInt8) (field : Bytes) : Bytes :=
  field.flatMap (d.escapeByte e)

/-- A record as it is written: its fields, joined by the delimiter, and a
line feed. -/
def escapeLine (d : Dialect) (e : UInt8) (fields : List Bytes) : Bytes :=
  d.delimiter.intercalate (fields.map (d.escapeField e)) ++ [Csv.lineFeed]

/-- The records of lines that are written, with none of their fields
NULL. -/
def escapeRecords (d : Dialect) (e : UInt8) (lines : List (List Bytes)) : List Record :=
  (lines.zipIdx 1).map fun (fields, number) =>
    { number := number, raw := d.escapeLine e fields, fields := fields.map (⟨·, false⟩) }

/-! ## What the dialect must be like -/

/-- A dialect without quotes whose escape takes itself and the bytes of the
delimiter for what they are. -/
structure Escaping (d : Dialect) (e : UInt8) : Prop where
  usable : d.Usable
  quote : d.quote = none
  escape : d.escape = some e
  letter : unescape e = e
  delimiter : ∀ b ∈ d.delimiter, unescape b = b

theorem letters_eq : Bytes.ascii "nrtbfv" = [0x6E, 0x72, 0x74, 0x62, 0x66, 0x76] := by rfl

/-- Only six letters stand for other bytes. -/
theorem unescape_eq_self {b : UInt8} (h : b ∉ Bytes.ascii "nrtbfv") : unescape b = b := by
  simp only [letters_eq, List.mem_cons, List.not_mem_nil, or_false, not_or] at h
  obtain ⟨hn, hr, ht, hb, hf, hv⟩ := h
  simp only [unescape, hn, hr, ht, hb, hf, hv, if_false]

/-- All of these are refused in a delimiter. -/
theorem not_mem_letters {b : UInt8} (h : isReserved b = false) : b ∉ Bytes.ascii "nrtbfv" := by
  intro hmem
  simp only [letters_eq, List.mem_cons, List.not_mem_nil, or_false] at hmem
  rcases hmem with rfl | rfl | rfl | rfl | rfl | rfl <;> exact absurd h (by decide)

theorem escaping_of_check {d : Dialect} {e : UInt8} (h : d.check = .ok ()) (hq : d.quote = none)
    (he : d.escape = some e) (hletter : e ∉ Bytes.ascii "nrtbfv") : d.Escaping e where
  usable := usable_of_check h
  quote := hq
  escape := he
  letter := unescape_eq_self hletter
  delimiter b hb := unescape_eq_self (not_mem_letters ((checked_of_check h).delimiter_reserved b hb))

/-! ## The marks of what is written -/

/-- The marks of a field. -/
def escapeMarks (d : Dialect) (e : UInt8) (field : Bytes) : List Mark :=
  field.map fun b => .content (d.escapeByte e b) b

/-- The marks of a record's fields. -/
def escapeLineMarks (d : Dialect) (e : UInt8) (fields : List Bytes) : List Mark :=
  [Mark.divider d.delimiter].intercalate (fields.map (d.escapeMarks e))

section Marks

variable {d : Dialect} {e : UInt8}

theorem isDivider_of_mem_escapeMarks {field : Bytes} {m : Mark} (h : m ∈ d.escapeMarks e field) :
    m.isDivider = false := by
  obtain ⟨b, -, rfl⟩ := List.mem_map.mp h
  rfl

/-- A field that is written is read back, and is NULL where it looks like
the marker. -/
theorem fieldOf_escapeMarks (force : Bool) (field : Bytes) :
    d.fieldOf force (d.escapeMarks e field)
      = ⟨field, !force && d.escapeField e field == d.nullMarker⟩ := by
  have hstands : (d.escapeMarks e field).filterMap Mark.stands? = field := by
    rw [escapeMarks, List.filterMap_map]
    exact List.filterMap_some
  have hread : (d.escapeMarks e field).flatMap Mark.read = d.escapeField e field := by
    rw [escapeMarks, List.flatMap_map]
    rfl
  rw [fieldOf, hstands, hread]

/-- The fields of a record that is written are those that it has. -/
theorem fieldsOf_escapeLineMarks {fields : List Bytes} (hne : fields ≠ [])
    (hnull : ∀ f ∈ fields, d.escapeField e f ≠ d.nullMarker) (forced : List Bool) :
    d.fieldsOf forced (d.escapeLineMarks e fields) = fields.map (⟨·, false⟩) := by
  refine fieldsOf_joined hne (fun _ _ hm => isDivider_of_mem_escapeMarks hm)
    (fun f hf force _ => ?_) _
  rw [fieldOf_escapeMarks, beq_false_of_ne (hnull f hf), Bool.and_false]

end Marks

section Records

variable {d : Dialect} {e : UInt8} {lines : List (List Bytes)}

theorem raw_escapeRecords :
    (d.escapeRecords e lines).map Record.raw = lines.map (d.escapeLine e) := by
  rw [escapeRecords, List.map_map]
  apply map_zipIdx_eq_map
  intro _
  rfl

theorem of_mem_escapeRecords {x : Record} (hx : x ∈ d.escapeRecords e lines) :
    ∃ fields ∈ lines, x.raw = d.escapeLine e fields ∧ x.fields = fields.map (⟨·, false⟩) ∧
      x.shortfall = none := by
  obtain ⟨⟨fields, number⟩, hline, rfl⟩ := List.mem_map.mp hx
  exact ⟨fields, List.fst_mem_of_mem_zipIdx hline, rfl, rfl, rfl⟩

end Records

/-! ## They are a run -/

/-- A byte that is not in the delimiter does not begin one. -/
theorem delimiter_not_in_front {d : Dialect} {b : UInt8} (hb : b ∉ d.delimiter) (rest : Bytes)
    (hsome : d.delimiter ≠ []) : ¬ d.delimiter <+: b :: rest := by
  obtain ⟨c, cs, hdelimiter⟩ := List.exists_cons_of_ne_nil hsome
  rw [hdelimiter]
  intro hlead
  rw [hdelimiter, (List.cons_prefix_cons.mp hlead).1] at hb
  exact hb List.mem_cons_self

namespace Escaping

variable {d : Dialect} {e : UInt8} (h : d.Escaping e)

include h

/-- A byte is written behind an escape, as one that stands for it and is no
carriage return, or means nothing and is written by itself. -/
theorem escapeByte_cases (b : UInt8) :
    (∃ c, d.escapeByte e b = [e, c] ∧ unescape c = b ∧ c ≠ Csv.carriageReturn) ∨
      d.escapeByte e b = [b] ∧ b ∉ d.delimiter ∧ b ≠ e ∧
        b ≠ Csv.lineFeed ∧ b ≠ Csv.carriageReturn := by
  unfold escapeByte
  split
  · next hfeed => exact .inl ⟨0x6E, rfl, hfeed.symm, by decide⟩
  next hfeed =>
  split
  · next hreturn => exact .inl ⟨0x72, rfl, hreturn.symm, by decide⟩
  next hreturn =>
  split
  · next hmeans =>
    refine .inl ⟨b, rfl, ?_, hreturn⟩
    rcases hmeans with rfl | hb
    · exact h.letter
    · exact h.delimiter b hb
  · next hmeans =>
    obtain ⟨hescape, hdelimiter⟩ := not_or.mp hmeans
    exact .inr ⟨rfl, hdelimiter, hescape, hfeed, hreturn⟩

theorem ne_quote (b : UInt8) : some b ≠ d.quote := by
  rw [h.quote]
  exact nofun

theorem escape_end : e ≠ Csv.lineFeed ∧ e ≠ Csv.carriageReturn :=
  h.usable.escape_end e h.escape.symm

/-- **A byte that is written has one mark.** -/
theorem front_escapeByte (b : UInt8) (rest : Bytes) :
    d.Front false (.content (d.escapeByte e b) b) rest (d.escapeByte e b ++ rest) := by
  obtain ⟨c, heq, rfl, -⟩ | ⟨heq, hdelimiter, hescape, -⟩ := h.escapeByte_cases b
  · have hdelimiter : e ∉ d.delimiter := fun he => h.usable.delimiter_escape e he h.escape.symm
    have hescape : some e = d.plainEscape := by
      rw [plainEscape, h.quote, h.escape]
      rfl
    rw [heq]
    exact .pair (delimiter_not_in_front hdelimiter (c :: rest)) (h.ne_quote e) hescape
  · rw [heq]
    refine .plain (delimiter_not_in_front hdelimiter rest) (h.ne_quote b) fun hb => ?_
    have hb := (escape_of_plainEscape hb).trans h.escape
    exact absurd (Option.some.inj hb) hescape

/-- No record ends where a byte is written. -/
theorem stopAt_escapeByte (b : UInt8) (rest : Bytes) : stopAt (d.escapeByte e b ++ rest) = [] := by
  obtain ⟨c, heq, -⟩ | ⟨heq, -, -, hends⟩ := h.escapeByte_cases b
  · rw [heq]
    exact stopAt_eq_nil h.escape_end (c :: rest)
  · rw [heq]
    exact stopAt_eq_nil hends rest

theorem return_not_mem_escapeByte (b : UInt8) : Csv.carriageReturn ∉ d.escapeByte e b := by
  obtain ⟨c, heq, -, hreturn⟩ | ⟨heq, -, -, -, hreturn⟩ := h.escapeByte_cases b
  · rw [heq]
    simp [h.escape_end.2.symm, hreturn.symm]
  · rw [heq]
    simp [hreturn.symm]

theorem run_escapeField (field rest : Bytes) :
    d.Run false (d.escapeMarks e field) false rest (d.escapeField e field ++ rest) := by
  induction field with
  | nil => exact .nil
  | cons b field ih =>
    rw [escapeField, List.flatMap_cons, List.append_assoc]
    exact .cons (h.front_escapeByte b _) (.inr (h.stopAt_escapeByte b _)) ih

theorem run_escapeFields (fields : List Bytes) (rest : Bytes) :
    d.Run false (d.escapeLineMarks e fields) false rest
      (d.delimiter.intercalate (fields.map (d.escapeField e)) ++ rest) :=
  h.usable.run_joined fields fun f after _ => h.run_escapeField f after

theorem return_not_mem (fields : List Bytes) :
    Csv.carriageReturn ∉ d.delimiter.intercalate (fields.map (d.escapeField e)) := by
  have hdelimiter : Csv.carriageReturn ∉ d.delimiter :=
    fun hmem => (h.usable.delimiter_end _ hmem).2 rfl
  have hfield : ∀ field, Csv.carriageReturn ∉ d.escapeField e field := by
    intro field hmem
    obtain ⟨b, -, hb⟩ := List.mem_flatMap.mp hmem
    exact h.return_not_mem_escapeByte b hb
  cases fields with
  | nil => exact List.not_mem_nil
  | cons f fs =>
    rw [List.map_cons, intercalate_cons, List.mem_append, List.flatMap_map, List.mem_flatMap]
    rintro (hmem | ⟨g, -, hmem⟩)
    · exact hfield f hmem
    · rcases List.mem_append.mp hmem with hmem | hmem
      · exact hdelimiter hmem
      · exact hfield g hmem

end Escaping

/-! ## What a reader finds -/

/-- A run up to a line feed closes a record. -/
theorem Run.closed {d : Dialect} (hd : d.Usable) {ms : List Mark} {bs : Bytes}
    (h : d.Run false ms false [Csv.lineFeed] bs) : d.Closed bs := by
  have hsame := h.same_divideFrom hd []
  have hend := d.divideFrom_end (next_lineFeed d) (ms.flatMap Mark.read) []
  rw [List.nil_append, show regionOf false = .outside from rfl, hend] at hsame
  have hclosed : (d.divide bs).closed = [bs] := by
    rw [← h.read_append]
    exact h.read_append ▸ hsame.closed
  refine closed_of_mem_segments hsame.tail ?_
  rw [Division.segments, hclosed]
  exact List.mem_append_left _ List.mem_cons_self

section Lines

variable {d : Dialect} {e : UInt8} (h : d.Escaping e) {fields : List Bytes}

include h

theorem closed_escapeLine (fields : List Bytes) : d.Closed (d.escapeLine e fields) :=
  (h.run_escapeFields fields [Csv.lineFeed]).closed h.usable

/-- The splitter finds the fields of a line. -/
theorem split_escapeLine (hne : fields ≠ [])
    (hnull : ∀ f ∈ fields, d.escapeField e f ≠ d.nullMarker) (forced : List Bool) :
    split d forced (stripEnd (d.escapeLine e fields)) = fields.map (⟨·, false⟩) := by
  have hrun := h.run_escapeFields fields []
  have hread := hrun.read_append
  have hlast : (d.delimiter.intercalate (fields.map (d.escapeField e))).getLast?
      ≠ some Csv.carriageReturn := by
    intro hlast
    exact h.return_not_mem fields (List.mem_of_getLast? hlast)
  rw [List.append_nil, List.append_nil] at hread
  rw [escapeLine, stripEnd_lineFeed hlast, split_eq_fieldsOf h.usable.some_delimiter, ← hread, hrun.splitMarks_eq,
    fieldsOf_escapeLineMarks hne hnull]

end Lines

end Dialect

/-- Records numbered in a row are counted already. -/
theorem Record.renumber_zipIdx {α : Type} (record : α × Nat → Record)
    (hnumber : ∀ a, (record a).number = a.2) (count : Nat) (xs : List α) :
    Record.renumber count ((xs.zipIdx (count + 1)).map record)
      = (xs.zipIdx (count + 1)).map record := by
  induction xs generalizing count with
  | nil => rfl
  | cons x xs ih =>
    rw [List.zipIdx_cons, List.map_cons, renumber, ih]
    have hfirst : (record (x, count + 1)).number = count + 1 := hnumber (x, count + 1)
    generalize record (x, count + 1) = first at hfirst
    rw [← hfirst]

namespace DelimitedReader

open Dialect

/-- **Reading undoes writing, without quotes.** In an accepted dialect with
an escape and no quote, whose escape is none of the letters that stand for
other bytes, records of any fields that fit are read back with the same
fields, none of which is NULL, unless a field is written as the NULL marker
is. It does not matter how long the delimiter is, in which columns the
marker is content, or how the source cuts its reads. -/
theorem delivers_escapeLine {d : Dialect} {e : UInt8} (hd : d.check = .ok ())
    (hq : d.quote = none) (he : d.escape = some e) (hletter : e ∉ Bytes.ascii "nrtbfv")
    {lines : List (List Bytes)} (hfields : ∀ fields ∈ lines, fields ≠ [])
    (hnull : ∀ fields ∈ lines, ∀ f ∈ fields, d.escapeField e f ≠ d.nullMarker)
    (cuts : List Cut) (forced : List Bool) (size limit : Nat)
    (hfit : ∀ fields ∈ lines, (d.escapeLine e fields).length < max 2 (max size limit)) :
    (RecordReader.delimited
      { source := { rest := lines.flatMap (d.escapeLine e), cuts := cuts }
        buffer := .ofSizes size limit, dialect := d, forced := forced }).Delivers
      (d.escapeRecords e lines) (.ok ()) := by
  have hescaping := escaping_of_check hd hq he hletter
  have hready := ready_start (lines.flatMap (d.escapeLine e)) cuts d forced size limit
  have hdelimited : ∀ x ∈ d.escapeRecords e lines,
      x.Delimited d forced (Buffer.ofSizes size limit).max := by
    intro x hx
    obtain ⟨fields, hline, hraw, hsplit, hwhole⟩ := of_mem_escapeRecords hx
    refine ⟨?_, hwhole, ?_, .inl ?_⟩
    · rw [hsplit, hraw, split_escapeLine hescaping (hfields fields hline) (hnull fields hline)]
    · rw [hraw, Buffer.max_ofSizes]
      exact hfit fields hline
    · rw [hraw]
      exact closed_escapeLine hescaping fields
  have hunread : [] ++ lines.flatMap (d.escapeLine e)
      = ((d.escapeRecords e lines).map Record.raw).flatten := by
    rw [raw_escapeRecords, List.nil_append, List.flatMap_def]
  have hclosed : ∀ x ∈ d.escapeRecords e lines, ¬ d.Dangling x.raw := by
    intro x hx hdangling
    obtain ⟨fields, -, hraw, -⟩ := of_mem_escapeRecords hx
    rw [hraw] at hdangling
    exact hdangling.not_closed (closed_escapeLine hescaping fields)
  have hdelivers := (delivers_renumber_iff hready hdelimited hunread).mpr hclosed
  rw [escapeRecords, Record.renumber_zipIdx _ fun _ => rfl] at hdelivers
  exact hdelivers

/-- Two records in the dialect of text with a delimiter of two bytes: line
ends, escapes, a tab, a byte of the delimiter beside the delimiter, what
looks like a letter behind an escape, and a field without bytes. -/
theorem delivers_escapeLine_lines :
    let d : Dialect := { Dialect.text with delimiter := Bytes.ascii "|A" }
    let lines : List (List Bytes) :=
      [[Bytes.ascii "a\\n|", Bytes.ascii "A\r\n", []], [Bytes.ascii "\\N\t"]]
    d.check = .ok () ∧
      lines.flatMap (d.escapeLine 0x5C)
        = Bytes.ascii "a\\\\n\\||A\\A\\r\\n|A\n\\\\N\t\n" ∧
      (RecordReader.delimited
        { source := { rest := lines.flatMap (d.escapeLine 0x5C), cuts := [.atMost 3, .atMost 1] }
          buffer := .ofSizes 2 32, dialect := d, forced := [false, true] }).Delivers
        (d.escapeRecords 0x5C lines) (.ok ()) := by
  intro d lines
  refine ⟨rfl, by decide, ?_⟩
  exact delivers_escapeLine rfl rfl rfl (by decide) (by decide) (by decide) _ _ _ _ (by decide)

end DelimitedReader
end Intake
