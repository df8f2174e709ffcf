import Mathlib.Data.List.TakeWhile
import Intake.Proofs.Record.OnePass
/-!
# Reading what was written

Fields of any bytes are written in a dialect with quotes: each within
quotes, with every quote and every escape in it behind an escape, the
fields of a record joined by the delimiter and the record followed by a
line end (`Dialect.writeLine`). A reader of the dialect gets the fields
back (`outcomes_writeLine`).

The marks of such bytes are known beforehand (`Dialect.lineMarks`), and
that is all there is to prove about them: they are a `Run`, field by
field and byte by byte, and what a run comes to is known already.
-/

namespace Intake

/-- What follows a record that is written. -/
inductive LineEnd where
  | lineFeed
  | returnLineFeed
  /-- Nothing, which will do for the last record. -/
  | absent
  deriving DecidableEq, Repr

def LineEnd.bytes : LineEnd → Bytes
  | lineFeed => [Csv.lineFeed]
  | returnLineFeed => [Csv.carriageReturn, Csv.lineFeed]
  | absent => []

/-- Joined items are the first one and the others, each behind what joins
them. -/
theorem intercalate_cons {α : Type} (between first : List α) (others : List (List α)) :
    between.intercalate (first :: others) = first ++ others.flatMap (between ++ ·) := by
  induction others generalizing first with
  | nil =>
    rw [List.intercalate_singleton]
    exact (List.append_nil first).symm
  | cons second others ih =>
    rw [List.intercalate_cons_cons, ih, List.flatMap_cons, List.append_assoc, List.append_assoc]

namespace Dialect

/-! ## Writing -/

/-- A byte of a field, behind an escape if it is a quote or an escape. A
dialect without an escape writes a quote twice. -/
def writeByte (d : Dialect) (q b : UInt8) : Bytes :=
  let e := d.escape.getD q
  if b = q ∨ b = e then [e, b] else [b]

/-- A field within quotes. -/
def writeField (d : Dialect) (q : UInt8) (field : Bytes) : Bytes :=
  q :: field.flatMap (d.writeByte q) ++ [q]

/-- The fields of a record, joined by the delimiter. -/
def writeFields (d : Dialect) (q : UInt8) : List Bytes → Bytes
  | [] => []
  | [f] => d.writeField q f
  | f :: g :: fs => d.writeField q f ++ d.delimiter ++ writeFields d q (g :: fs)

/-- A record with its line end. -/
def writeLine (d : Dialect) (q : UInt8) (line : List Bytes × LineEnd) : Bytes :=
  d.writeFields q line.1 ++ line.2.bytes

/-! ## The marks of what is written -/

/-- The mark of a byte of a field. -/
def byteMark (d : Dialect) (q b : UInt8) : Mark := .content (d.writeByte q b) b

/-- The marks of a field. -/
def fieldMarks (d : Dialect) (q : UInt8) (field : Bytes) : List Mark :=
  .quote q :: field.map (d.byteMark q) ++ [.quote q]

/-- The marks of a record's fields. -/
def lineMarks (d : Dialect) (q : UInt8) : List Bytes → List Mark
  | [] => []
  | [f] => d.fieldMarks q f
  | f :: g :: fs => d.fieldMarks q f ++ .divider d.delimiter :: lineMarks d q (g :: fs)

section Marks

variable {d : Dialect} {q : UInt8} {forced : List Bool}

theorem isDivider_of_mem_fieldMarks {field : Bytes} {m : Mark} (h : m ∈ d.fieldMarks q field) :
    m.isDivider = false := by
  simp only [fieldMarks, List.cons_append, List.mem_cons, List.mem_append, List.mem_map,
    List.not_mem_nil, or_false] at h
  rcases h with rfl | ⟨b, -, rfl⟩ | rfl <;> rfl

theorem read_fieldMarks (field : Bytes) :
    (d.fieldMarks q field).flatMap Mark.read = d.writeField q field := by
  simp [fieldMarks, writeField, List.flatMap_map, byteMark]

theorem stands_fieldMarks (field : Bytes) :
    (d.fieldMarks q field).filterMap Mark.stands? = field := by
  have hbytes : (field.map (d.byteMark q)).filterMap Mark.stands? = field := by
    rw [List.filterMap_map]
    exact List.filterMap_some
  rw [fieldMarks, List.filterMap_append, List.filterMap_cons_none rfl, hbytes]
  exact List.append_nil field

/-- A field that is written is not NULL: its bytes have a quote, and the
marker has none. -/
theorem fieldOf_fieldMarks (hnull : q ∉ d.nullMarker) (force : Bool) (field : Bytes) :
    d.fieldOf force (d.fieldMarks q field) = ⟨field, false⟩ := by
  have hne : d.writeField q field ≠ d.nullMarker := by
    intro heq
    rw [← heq] at hnull
    exact hnull List.mem_cons_self
  simp [fieldOf, read_fieldMarks, stands_fieldMarks, hne]

theorem writeFields_eq (fields : List Bytes) :
    d.writeFields q fields = d.delimiter.intercalate (fields.map (d.writeField q)) := by
  induction fields with
  | nil => rfl
  | cons f fs ih =>
    cases fs with
    | nil => exact List.intercalate_singleton.symm
    | cons g fs =>
      rw [writeFields, ih, List.map_cons, List.map_cons, List.map_cons,
        List.intercalate_cons_cons]

theorem lineMarks_eq (fields : List Bytes) :
    d.lineMarks q fields = [Mark.divider d.delimiter].intercalate (fields.map (d.fieldMarks q)) := by
  induction fields with
  | nil => rfl
  | cons f fs ih =>
    cases fs with
    | nil => exact List.intercalate_singleton.symm
    | cons g fs =>
      rw [lineMarks, ih, List.map_cons, List.map_cons, List.map_cons,
        List.intercalate_cons_cons, List.append_assoc, List.singleton_append]

/-- The fields of a record that is written are those that it has. -/
theorem fieldsOf_lineMarks (hnull : q ∉ d.nullMarker) {fields : List Bytes} (hne : fields ≠ []) :
    d.fieldsOf forced (d.lineMarks q fields) = fields.map (⟨·, false⟩) := by
  rw [lineMarks_eq]
  exact fieldsOf_joined hne (fun _ _ hm => isDivider_of_mem_fieldMarks hm)
    (fun f _ force _ => fieldOf_fieldMarks hnull force f) _

end Marks

/-! ## They are a run -/

theorem Run.append {d : Dialect} {quoted mid last : Bool} {ms ms' : List Mark}
    {rest between bs : Bytes} (h : d.Run quoted ms mid between bs)
    (h' : d.Run mid ms' last rest between) : d.Run quoted (ms ++ ms') last rest bs := by
  induction h with
  | nil => exact h'
  | cons front goes run ih => exact .cons front goes (ih h')

theorem stopAt_eq_nil {b : UInt8} (h : b ≠ Csv.lineFeed ∧ b ≠ Csv.carriageReturn) (bs : Bytes) :
    stopAt (b :: bs) = [] := by
  simp [stopAt, h.1, h.2]

/-- A delimiter stands for itself. -/
theorem Usable.run_divider {d : Dialect} (hd : d.Usable) (rest : Bytes) :
    d.Run false [.divider d.delimiter] false rest (d.delimiter ++ rest) := by
  obtain ⟨b, tail, hdelimiter⟩ := List.exists_cons_of_ne_nil hd.some_delimiter
  have hstop : stopAt (d.delimiter ++ rest) = [] := by
    rw [hdelimiter]
    exact stopAt_eq_nil (hd.delimiter_end b (hdelimiter ▸ List.mem_cons_self)) _
  exact .cons (.divider hd.some_delimiter) (.inr hstop) .nil

/-- **Fields joined by delimiters are a run** if each of them is one,
before a delimiter and at the end. -/
theorem Usable.run_joined {d : Dialect} (hd : d.Usable) {marks : Bytes → List Mark}
    {written : Bytes → Bytes} {rest : Bytes} (fields : List Bytes)
    (hfield : ∀ f after, (after = rest ∨ d.delimiter <+: after) →
      d.Run false (marks f) false after (written f ++ after)) :
    d.Run false ([Mark.divider d.delimiter].intercalate (fields.map marks)) false rest
      (d.delimiter.intercalate (fields.map written) ++ rest) := by
  induction fields with
  | nil => exact .nil
  | cons f fs ih =>
    cases fs with
    | nil =>
      rw [List.map_singleton, List.map_singleton, List.intercalate_singleton,
        List.intercalate_singleton]
      exact hfield f rest (.inl rfl)
    | cons g fs =>
      rw [List.map_cons, List.map_cons, List.map_cons, List.map_cons,
        List.intercalate_cons_cons, List.intercalate_cons_cons, List.append_assoc,
        List.append_assoc, List.append_assoc]
      exact (hfield f _ (.inr (List.prefix_append ..))).append ((hd.run_divider _).append ih)

section Run

variable {d : Dialect} {q : UInt8} {rest : Bytes} (hd : d.Usable) (hq : d.quote = some q)

include hq

/-- The escape within quotes is the one that bytes are written with,
unless quotes are written twice. -/
theorem quotedEscape_eq :
    d.quotedEscape = if d.escape.getD q = q then none else some (d.escape.getD q) := by
  unfold quotedEscape
  rw [hq]
  cases d.escape with
  | none => simp
  | some e => simp [eq_comm]

/-- A byte that is written has one mark within quotes. -/
theorem front_byteMark (b : UInt8) (rest : Bytes) :
    d.Front true (d.byteMark q b) rest (d.writeByte q b ++ rest) := by
  have hescape := quotedEscape_eq hq
  unfold byteMark writeByte
  by_cases hsame : d.escape.getD q = q
  · rw [if_pos hsame] at hescape
    simp only [hsame, or_self]
    split
    · next hb =>
      subst hb
      exact .doubled hq.symm hescape
    · next hb => exact .quoted (by simpa [hq] using hb) fun he => by simp [hescape] at he
  · rw [if_neg hsame] at hescape
    dsimp only
    split
    · next hb =>
      refine .escaped hescape.symm ?_
      rcases hb with rfl | rfl
      · exact .inl hq.symm
      · exact .inr hescape.symm
    · next hb =>
      obtain ⟨hbq, hbe⟩ := not_or.mp hb
      exact .quoted (by simpa [hq] using hbq) fun he => by simp [hescape, hbe] at he

theorem run_body (body rest : Bytes) :
    d.Run true (body.map (d.byteMark q)) true rest (body.flatMap (d.writeByte q) ++ rest) := by
  induction body with
  | nil => exact .nil
  | cons b body ih =>
    rw [List.flatMap_cons, List.append_assoc]
    exact .cons (front_byteMark hq b _) (.inl rfl) ih

include hd

theorem run_field (field : Bytes) (hrest : rest.head? ≠ some q) :
    d.Run false (d.fieldMarks q field) false rest (d.writeField q field ++ rest) := by
  have hopening : d.Front false (.quote q) (field.flatMap (d.writeByte q) ++ q :: rest)
      (q :: (field.flatMap (d.writeByte q) ++ q :: rest)) := by
    refine .opening (fun hsome hlead => ?_) hq.symm
    rcases List.prefix_cons_iff.mp hlead with hnil | ⟨tail, htail, -⟩
    · exact hsome hnil
    · refine hd.delimiter_quote q ?_ hq.symm
      rw [htail]
      exact List.mem_cons_self
  have hclosing : d.Run true [.quote q] false rest (q :: rest) :=
    .cons (.closing hq.symm fun _ => hrest) (.inl rfl) .nil
  have hend := hd.quote_end q hq.symm
  have hwritten : d.writeField q field ++ rest
      = q :: (field.flatMap (d.writeByte q) ++ q :: rest) := by
    simp [writeField]
  rw [hwritten]
  exact .cons hopening (.inr (stopAt_eq_nil hend _)) ((run_body hq field _).append hclosing)

/-- What begins with a delimiter does not begin with a quote. -/
theorem head?_ne_quote {after : Bytes} (h : d.delimiter <+: after) : after.head? ≠ some q := by
  obtain ⟨b, tail, hdelimiter⟩ := List.exists_cons_of_ne_nil hd.some_delimiter
  obtain ⟨behind, rfl⟩ := h
  rw [hdelimiter, List.cons_append, List.head?_cons]
  intro heq
  exact hd.delimiter_quote b (hdelimiter ▸ List.mem_cons_self) (heq.trans hq.symm)

theorem run_fields (fields : List Bytes) (hrest : rest.head? ≠ some q) :
    d.Run false (d.lineMarks q fields) false rest (d.writeFields q fields ++ rest) := by
  rw [lineMarks_eq, writeFields_eq]
  refine hd.run_joined fields fun f after hafter => run_field hd hq f ?_
  rcases hafter with rfl | hdelimiter
  · exact hrest
  · exact head?_ne_quote hd hq hdelimiter

end Run

/-! ## What a pass finds -/

/-- The records of lines that are written, after `count` others. -/
def lineRecords (d : Dialect) (q : UInt8) (count : Nat) (lines : List (List Bytes × LineEnd)) :
    List Record :=
  (lines.zipIdx (count + 1)).map fun (line, number) =>
    { number := number
      raw := d.writeFields q line.1 ++ completed line.2.bytes
      fields := line.1.map (⟨·, false⟩) }

section Lines

variable {d : Dialect} {q : UInt8} (hd : d.Usable) (hq : d.quote = some q)
  (hnull : q ∉ d.nullMarker)

include hd hq hnull

/-- A line comes to its record. -/
theorem recordOf_lineMarks {fields : List Bytes} (hne : fields ≠ []) (forced : List Bool)
    (number : Nat) (stop : Bytes) :
    d.recordOf forced number (d.lineMarks q fields) stop
      = { number := number
          raw := d.writeFields q fields ++ completed stop
          fields := fields.map (⟨·, false⟩) } := by
  have hread := (run_fields hd hq fields (show ([] : Bytes).head? ≠ some q from nofun)).read_append
  rw [List.append_nil, List.append_nil] at hread
  rw [recordOf, hread, fieldsOf_lineMarks hnull hne]

/-- A line with an end is the next record. -/
theorem transcribeFrom_ended (forced : List Bool) (count : Nat) {fields : List Bytes}
    (hne : fields ≠ []) {lineEnd : LineEnd} (hend : lineEnd ≠ .absent) (rest : Bytes) :
    d.transcribeFrom forced count false [] (d.writeLine q (fields, lineEnd) ++ rest)
      = (d.transcribeFrom forced (count + 1) false [] rest).cons
          { number := count + 1
            raw := d.writeFields q fields ++ completed lineEnd.bytes
            fields := fields.map (⟨·, false⟩) } := by
  have hquote := hd.quote_end q hq.symm
  have hrun : d.Run false (d.lineMarks q fields) false (lineEnd.bytes ++ rest)
      (d.writeFields q fields ++ (lineEnd.bytes ++ rest)) := by
    refine run_fields hd hq fields ?_
    cases lineEnd with
    | lineFeed => simpa [LineEnd.bytes] using hquote.1.symm
    | returnLineFeed => simpa [LineEnd.bytes] using hquote.2.symm
    | absent => exact absurd rfl hend
  rw [writeLine, List.append_assoc, hrun.transcribeFrom_eq, List.nil_append,
    ← recordOf_lineMarks hd hq hnull hne]
  cases lineEnd with
  | lineFeed => exact transcribeFrom_stop (b := Csv.lineFeed) nofun
  | returnLineFeed => exact transcribeFrom_stop (b := Csv.carriageReturn) nofun
  | absent => exact absurd rfl hend

/-- A line without an end is the last record. -/
theorem transcribeFrom_absent (forced : List Bool) (count : Nat) {fields : List Bytes}
    (hne : fields ≠ []) :
    d.transcribeFrom forced count false [] (d.writeLine q (fields, .absent))
      = { records := [{ number := count + 1
                        raw := d.writeFields q fields ++ [Csv.lineFeed]
                        fields := fields.map (⟨·, false⟩) }]
          unclosed := none } := by
  have hrun := run_fields hd hq fields (show ([] : Bytes).head? ≠ some q from nofun)
  have hmarks : d.lineMarks q fields ≠ [] := by
    match fields with
    | [] => exact absurd rfl hne
    | [_] => exact List.cons_ne_nil _ _
    | _ :: _ :: _ => exact List.cons_ne_nil _ _
  rw [writeLine]
  show d.transcribeFrom forced count false [] (d.writeFields q fields ++ []) = _
  rw [hrun.transcribeFrom_eq, transcribeFrom, List.nil_append, if_neg Bool.false_ne_true,
    if_neg hmarks, recordOf_lineMarks hd hq hnull hne]
  rfl

/-- **A pass over lines that are written finds their records.** -/
theorem transcribeFrom_writeLine (forced : List Bool) (count : Nat)
    (lines : List (List Bytes × LineEnd)) (hfields : ∀ line ∈ lines, line.1 ≠ [])
    (hends : ∀ line ∈ lines.dropLast, line.2 ≠ .absent) :
    d.transcribeFrom forced count false [] (lines.flatMap (d.writeLine q))
      = { records := d.lineRecords q count lines, unclosed := none } := by
  induction lines generalizing count with
  | nil =>
    rw [List.flatMap_nil, transcribeFrom]
    rfl
  | cons line lines ih =>
    obtain ⟨fields, lineEnd⟩ := line
    have hne : fields ≠ [] := hfields _ List.mem_cons_self
    have hfields' := fun line hline => hfields line (List.mem_cons_of_mem _ hline)
    rw [List.flatMap_cons]
    by_cases hend : lineEnd = .absent
    · subst hend
      cases lines with
      | nil =>
        rw [List.flatMap_nil, List.append_nil, transcribeFrom_absent hd hq hnull forced count hne]
        rfl
      | cons next lines => exact absurd rfl (hends _ List.mem_cons_self)
    · have hends' : ∀ line ∈ lines.dropLast, line.2 ≠ .absent := by
        cases lines with
        | nil =>
          intro line hline
          cases hline
        | cons next lines => exact fun line hline => hends line (List.mem_cons_of_mem _ hline)
      rw [transcribeFrom_ended hd hq hnull forced count hne hend, ih _ hfields' hends']
      rfl

end Lines

end Dialect

namespace DelimitedReader

/-- **Reading undoes writing.** In an accepted dialect with quotes, whose
NULL marker has no quote in it, records of any fields that are written
with a line end each, the last one perhaps without, and that fit, are
read back with the same fields, none of which is NULL. It does not matter
what escape the dialect has, if any, or how the source cuts its reads. -/
theorem outcomes_writeLine {d : Dialect} {q : UInt8} (hd : d.check = .ok ())
    (hq : d.quote = some q) (hnull : q ∉ d.nullMarker) (lines : List (List Bytes × LineEnd))
    (hfields : ∀ line ∈ lines, line.1 ≠ []) (hends : ∀ line ∈ lines.dropLast, line.2 ≠ .absent)
    (cuts : List Cut) (forced : List Bool) (size limit n : Nat)
    (hfit : ∀ x ∈ d.lineRecords q 0 lines, x.raw.length < max 2 (max size limit)) :
    let reader : DelimitedReader :=
      { source := { rest := lines.flatMap (d.writeLine q), cuts := cuts }
        buffer := .ofSizes size limit, dialect := d, forced := forced }
    reader.outcomes n
      = ((d.lineRecords q 0 lines).map (Except.ok ∘ some) ++ [Except.ok none]).take n := by
  intro reader
  have husable := Dialect.usable_of_check hd
  have hpass := Dialect.transcribeFrom_writeLine husable hq hnull forced 0 lines hfields hends
  have hall : (d.lineRecords q 0 lines).takeWhile (·.raw.length < max 2 (max size limit))
      = d.lineRecords q 0 lines := by
    exact List.takeWhile_eq_self_iff.mpr fun x hx => decide_eq_true (hfit x hx)
  have houtcomes := outcomes_eq_transcribe husable (Dialect.plainEscape_eq_none hq)
    (lines.flatMap (d.writeLine q)) cuts forced size limit n
  rw [houtcomes, Dialect.transcribe, hpass, Transcript.outcomes, Transcript.stop, hall,
    if_neg (Nat.lt_irrefl _)]
  rfl

/-- Two records in a dialect with another escape than its quote: fields
with an escape at the end, with a quote, with nothing, and with the bytes
of a line end and of a delimiter. -/
theorem outcomes_writeLine_lines :
    let d : Dialect := ⟨Bytes.ascii "||", some 0x22, some 0x5C, Bytes.ascii "NULL", []⟩
    let lines : List (List Bytes × LineEnd) :=
      [([Bytes.ascii "a\\", Bytes.ascii "\"", []], .returnLineFeed),
        ([Bytes.ascii "\r\n||"], .absent)]
    d.check = .ok () ∧ d.quote = some 0x22 ∧ 0x22 ∉ d.nullMarker ∧
      lines.flatMap (d.writeLine 0x22)
        = Bytes.ascii "\"a\\\\\"||\"\\\"\"||\"\"\r\n\"\r\n||\"" ∧
      DelimitedReader.outcomes
          { source := { rest := lines.flatMap (d.writeLine 0x22), cuts := [.atMost 3, .atMost 9] }
            buffer := .ofSizes 2 32, dialect := d, forced := [true] } 9
        = (d.lineRecords 0x22 0 lines).map (Except.ok ∘ some) ++ [Except.ok none] := by
  intro d lines
  refine ⟨rfl, rfl, by decide, by decide, ?_⟩
  exact outcomes_writeLine rfl rfl (by decide) lines (by decide) (by decide) _ _ _ _ _ (by decide)

end DelimitedReader
end Intake
