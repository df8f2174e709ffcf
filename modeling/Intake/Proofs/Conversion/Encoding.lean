import Intake.Proofs.Conversion.Default
/-!
# What becomes of character data

Before anything else about a row is checked, its character data becomes
what is stored. Where the input is in the encoding of what is stored,
nothing is changed: the row is refused if some text of it is not UTF-8,
for the first column that has one, and the message names the byte behind
the longest part of that text that is UTF-8 (`Rules.KeepsText`). Latin-1
is never refused: every text becomes the UTF-8 form of its bytes read as
code points, from which the bytes can be had back, and what follows is
what follows for the row with these texts in an UTF-8 load
(`Rules.TranscodesText`).

Text that is ASCII is passed by without being looked at, in every
encoding. That is never noticed (`Rules.storeText_eq`).
-/

namespace Intake

open Utf8 (LongestText)

/-- The first column whose character data is not UTF-8, with that data. -/
inductive FirstFault : List Value → Nat → Bytes → Prop where
  | here {bs : Bytes} {values : List Value} (fault : ¬ Utf8.WellFormed bs) :
    FirstFault (.text bs :: values) 0 bs
  | later {v : Value} {values : List Value} {i : Nat} {bs : Bytes}
      (fine : ∀ bs', v = .text bs' → Utf8.WellFormed bs') (rest : FirstFault values i bs) :
    FirstFault (v :: values) (i + 1) bs

/-- If there is such a column then there is a first one. -/
theorem exists_firstFault {values : List Value} {bs : Bytes} (h : .text bs ∈ values)
    (hfault : ¬ Utf8.WellFormed bs) : ∃ i bs, FirstFault values i bs := by
  induction values with
  | nil => cases h
  | cons v values ih =>
    by_cases hfine : ∀ bs', v = .text bs' → Utf8.WellFormed bs'
    · have hrest : .text bs ∈ values := by
        rcases List.mem_cons.mp h with heq | hmem
        · exact absurd (hfine bs heq.symm) hfault
        · exact hmem
      obtain ⟨i, bs', hfirst⟩ := ih hrest
      exact ⟨i + 1, bs', .later hfine hfirst⟩
    · obtain ⟨bs', hnot⟩ := Classical.not_forall.mp hfine
      obtain ⟨heq, hfault'⟩ := Classical.not_imp.mp hnot
      subst heq
      exact ⟨0, bs', .here hfault'⟩

/-- The first such column is one. -/
theorem FirstFault.exists_mem {values : List Value} {i : Nat} {bs : Bytes}
    (h : FirstFault values i bs) : .text bs ∈ values ∧ ¬ Utf8.WellFormed bs := by
  induction h with
  | here fault => exact ⟨List.mem_cons_self, fault⟩
  | later _ _ ih => exact ⟨List.mem_cons_of_mem _ ih.1, ih.2⟩

namespace Rules

variable {r : Rules} {record : Nat} {row : Row}

/-- The refusal of a column whose character data has no stored form. -/
def textRefusal (record column : Nat) (detail : String) : RowError :=
  .rejected (.constraint ⟨record, some column, .encoding detail⟩)

/-- A row is refused for its character data. -/
def RefusesText (r : Rules) (record : Nat) (row : Row) : Prop :=
  ∃ column detail, (r.validate record row).outcome = .error (textRefusal record column detail)

/-! ## One text -/

/-- **What is not UTF-8 is refused**, for the byte behind the longest part of
it that is. -/
theorem checked_of_fault {bs : Bytes} (h : ¬ Utf8.WellFormed bs) :
    ∃ n bad, LongestText bs n ∧ bad ≠ [] ∧ bad <+: bs.drop n ∧
      Transcoder.checked bs = .error (Transcoder.faultText n bad) := by
  cases hfault : Utf8.fault? bs with
  | none => exact absurd ((Utf8.isText_iff bs).mp (Option.isNone_iff_eq_none.mpr hfault)) h
  | some fault =>
    obtain ⟨n, bad⟩ := fault
    obtain ⟨m, heq, hlongest, hsome, hbad⟩ := Utf8.faultFrom_eq_some hfault
    obtain rfl : n = m := heq.trans (Nat.zero_add m)
    exact ⟨n, bad, hlongest, hsome, hbad, by rw [Transcoder.checked, hfault]⟩

/-- ASCII is stored as it is by every known encoding. -/
theorem known_of_isAscii {bs : Bytes} (h : Utf8.isAscii bs = true) (encoding : Encoding) :
    Transcoder.known encoding bs = .ok bs := by
  have hchecked := Transcoder.checked_of_wellFormed (Utf8.wellFormed_of_isAscii h)
  cases encoding with
  | latin1 =>
    show Except.ok (Utf8.ofLatin1 bs) = .ok bs
    rw [Utf8.ofLatin1_eq_self_iff.mpr h]
  | utf8 => exact hchecked
  | sqlAscii => exact hchecked

/-- **What a text becomes is what the known transcoder makes of it**, also
where it is not asked: for ASCII, and where nothing is to be changed. -/
theorem storeText_eq (hknown : r.transcoder = .known) (record i : Nat) (bs : Bytes) :
    r.storeText record i bs = (Transcoder.known r.encoding bs).mapError (textRefusal record i) := by
  unfold storeText
  split
  · next hascii =>
    rw [known_of_isAscii hascii]
    rfl
  · have hsame : (if r.encoding.matchesStorage then Transcoder.checked bs
        else r.transcoder r.encoding bs) = Transcoder.known r.encoding bs := by
      rw [hknown]
      cases r.encoding <;> rfl
    dsimp only
    rw [hsame]
    cases Transcoder.known r.encoding bs <;> rfl

/-- A text that is not UTF-8 has no stored form. -/
theorem storeText_of_fault (hmatches : r.encoding.matchesStorage = true) {bs : Bytes}
    (h : ¬ Utf8.WellFormed bs) (record i : Nat) :
    ∃ n bad, LongestText bs n ∧ bad ≠ [] ∧ bad <+: bs.drop n ∧
      r.storeText record i bs = .error (textRefusal record i (Transcoder.faultText n bad)) := by
  obtain ⟨n, bad, hlongest, hsome, hbad, hchecked⟩ := checked_of_fault h
  have hascii : ¬ Utf8.isAscii bs = true := fun hascii => h (Utf8.wellFormed_of_isAscii hascii)
  refine ⟨n, bad, hlongest, hsome, hbad, ?_⟩
  unfold storeText
  dsimp only
  rw [if_neg hascii, if_pos hmatches, hchecked]
  rfl

/-! ## All values of a row -/

/-- Each text of a Latin-1 load has a stored form. -/
theorem storeValues_of_latin1 (hknown : r.transcoder = .known) (hencoding : r.encoding = .latin1)
    (values : List Value) (record i : Nat) :
    r.storeValues record i values = (.ok (), values.map (Value.stored .latin1)) := by
  have hok : (r.storeValues record i values).1 = .ok () := by
    induction values generalizing i with
    | nil => rfl
    | cons v values ih =>
      cases v with
      | text bs =>
        rw [storeValues, storeText_eq hknown, hencoding]
        exact ih (i + 1)
      | _ => exact ih (i + 1)
  rw [← hencoding]
  exact Prod.ext hok (storeValues_known hknown hok)

/-- A text that is not UTF-8 stops the pass at its column, with nothing
changed. -/
theorem storeValues_firstFault (hmatches : r.encoding.matchesStorage = true)
    {values : List Value} {k : Nat} {bs : Bytes} (h : FirstFault values k bs) (record i : Nat) :
    ∃ n bad, LongestText bs n ∧ bad ≠ [] ∧ bad <+: bs.drop n ∧
      r.storeValues record i values
        = (.error (textRefusal record (i + k) (Transcoder.faultText n bad)), values) := by
  induction h generalizing i with
  | @here bs values fault =>
    obtain ⟨n, bad, hlongest, hsome, hbad, hstored⟩ := storeText_of_fault hmatches fault record i
    refine ⟨n, bad, hlongest, hsome, hbad, ?_⟩
    rw [storeValues, hstored]
    rfl
  | @later v values k bs fine rest ih =>
    obtain ⟨n, bad, hlongest, hsome, hbad, hrest⟩ := ih (i + 1)
    rw [Nat.add_right_comm] at hrest
    -- what stands before the fault goes through as it is
    have hcons : r.storeValues record i (v :: values)
        = ((r.storeValues record (i + 1) values).1,
            v :: (r.storeValues record (i + 1) values).2) := by
      cases v with
      | text bs' => rw [storeValues, storeText_of_wellFormed hmatches (fine bs' rfl)]
      | _ => rfl
    refine ⟨n, bad, hlongest, hsome, hbad, ?_⟩
    rw [hcons, hrest]
    rfl

/-! ## The row -/

/-- Only the pass over the texts refuses a row for a text. -/
theorem refusesText_iff : r.RefusesText record row ↔
    ∃ column detail,
      (r.storeValues record 0 row.values).1 = .error (textRefusal record column detail) := by
  have hvalidated := r.validated record row
  unfold RefusesText
  generalize r.validate record row = checked at hvalidated ⊢
  cases hvalidated with
  | unstored stored => rw [stored]
  | null stored =>
    rw [stored]
    constructor
    · rintro ⟨column, detail, heq⟩
      cases heq
    · rintro ⟨column, detail, heq⟩
      cases heq
  | unasked stored => rw [stored]
  | @answered _ answer stored =>
    rw [stored]
    constructor
    · rintro ⟨column, detail, heq⟩
      cases answer with
      | ok _ => cases heq
      | error e => cases e <;> cases heq
    · rintro ⟨column, detail, heq⟩
      cases heq

/-- A row whose texts are stored as they are. -/
structure KeepsText (r : Rules) (record : Nat) (row : Row) : Prop where
  /-- Nothing is changed, whatever comes of the row. -/
  row_eq : (r.validate record row).row = row
  refuses_iff : r.RefusesText record row ↔ ∃ bs, .text bs ∈ row.values ∧ ¬ Utf8.WellFormed bs
  /-- The first text that is not UTF-8 is refused, for the byte behind the
  longest part of it that is. -/
  first : ∀ i bs, FirstFault row.values i bs →
    ∃ n bad, LongestText bs n ∧ bad ≠ [] ∧ bad <+: bs.drop n ∧
      r.validate record row
        = { outcome := .error (textRefusal record i (Transcoder.faultText n bad)), row := row }

/-- A row whose texts are stored as UTF-8 forms of the code points that
their bytes are. -/
structure TranscodesText (r : Rules) (record : Nat) (row : Row) : Prop where
  accepts : ¬ r.RefusesText record row
  nulls : (r.validate record row).row.nulls = row.nulls
  width : (r.validate record row).row.values.length = row.values.length
  text : ∀ (i : Nat) (bs : Bytes), row.values[i]? = some (.text bs) →
    ∃ stored, (r.validate record row).row.values[i]? = some (.text stored) ∧
      stored = Bytes.ofString (Utf8.latin1Text bs) ∧
      (Utf8.decode? stored).map Bytes.ascii = some bs
  other : ∀ (i : Nat) (v : Value), row.values[i]? = some v → (∀ bs, v ≠ .text bs) →
    (r.validate record row).row.values[i]? = some v
  /-- Everything that follows is what follows for the stored texts. -/
  validate_eq : r.validate record row
    = ({ r with encoding := .utf8 } : Rules).validate record (r.validate record row).row

theorem keepsText (hmatches : r.encoding.matchesStorage = true) (record : Nat) (row : Row) :
    r.KeepsText record row := by
  have hvalidated := r.validated record row
  have hstops : ∀ i bs, FirstFault row.values i bs →
      ∃ n bad, LongestText bs n ∧ bad ≠ [] ∧ bad <+: bs.drop n ∧
        r.storeValues record 0 row.values
          = (.error (textRefusal record i (Transcoder.faultText n bad)), row.values) := by
    intro i bs hfirst
    have h := storeValues_firstFault hmatches hfirst record 0
    rwa [Nat.zero_add] at h
  -- either each text is UTF-8 or there is a first that is not
  by_cases hfine : ∀ bs, .text bs ∈ row.values → Utf8.WellFormed bs
  · have hstored := storeValues_of_wellFormed hmatches hfine record 0
    refine ⟨?_, ?_, fun i bs hfirst => ?_⟩
    · rw [hvalidated.row_eq, hstored]
    · rw [refusesText_iff, hstored]
      constructor
      · rintro ⟨column, detail, heq⟩
        cases heq
      · rintro ⟨bs, hmem, hfault⟩
        exact absurd (hfine bs hmem) hfault
    · exact absurd (hfine bs hfirst.exists_mem.1) hfirst.exists_mem.2
  · obtain ⟨bs, hnot⟩ := Classical.not_forall.mp hfine
    obtain ⟨hmem, hfault⟩ := Classical.not_imp.mp hnot
    obtain ⟨i, bs', hfirst⟩ := exists_firstFault hmem hfault
    obtain ⟨n, bad, -, -, -, hstored⟩ := hstops i bs' hfirst
    refine ⟨?_, ?_, fun i' bs'' hfirst' => ?_⟩
    · rw [hvalidated.row_eq, hstored]
    · rw [refusesText_iff, hstored]
      exact iff_of_true ⟨i, _, rfl⟩ ⟨bs, hmem, hfault⟩
    · obtain ⟨n', bad', hlongest, hsome, hbad, hstored'⟩ := hstops i' bs'' hfirst'
      exact ⟨n', bad', hlongest, hsome, hbad, (Validated.unstored hstored').eq⟩

section Known

variable (hknown : r.transcoder = .known)

include hknown

theorem transcodesText (hencoding : r.encoding = .latin1) (record : Nat) (row : Row) :
    r.TranscodesText record row := by
  have hstored := storeValues_of_latin1 hknown hencoding row.values record 0
  have hrow : (r.validate record row).row
      = { row with values := row.values.map (Value.stored .latin1) } := by
    rw [(r.validated record row).row_eq, hstored]
  refine ⟨?_, ?_, ?_, fun i bs htext => ?_, fun i v hv hnot => ?_, ?_⟩
  · rw [refusesText_iff, hstored]
    rintro ⟨column, detail, heq⟩
    cases heq
  · rw [hrow]
  · rw [hrow]
    exact List.length_map ..
  · refine ⟨Utf8.ofLatin1 bs, ?_, Utf8.ofLatin1_eq bs, Utf8.decode?_ofLatin1 bs⟩
    rw [hrow, List.getElem?_map, htext]
    rfl
  · rw [hrow, List.getElem?_map, hv]
    cases v with
    | text bs => exact absurd rfl (hnot bs)
    | _ => rfl
  · have hfine : ∀ bs, .text bs ∈ row.values.map (Value.stored .latin1) → Utf8.WellFormed bs := by
      intro bs hmem
      obtain ⟨v, -, heq⟩ := List.mem_map.mp hmem
      cases v with
      | text bs' =>
        cases heq
        exact Utf8.wellFormed_ofLatin1 bs'
      | _ => cases heq
    have hagain := storeValues_of_wellFormed (r := { r with encoding := .utf8 }) rfl hfine record 0
    rw [hrow]
    unfold validate
    rw [hstored, hagain]
    rfl

/-- **What becomes of character data.** Of a row whose input is in the
encoding of what is stored every value stays as it is, and the row is
refused for the first text that is not UTF-8. Latin-1 is never refused,
and each text becomes the UTF-8 form of its bytes read as code points.
That ASCII is passed by makes no difference to what the transcoder would
have made of a text. -/
theorem validate_encoding (record : Nat) (row : Row) :
    (r.encoding ≠ .latin1 → r.KeepsText record row) ∧
    (r.encoding = .latin1 → r.TranscodesText record row) ∧
    ∀ column bs, r.storeText record column bs
      = (r.transcoder r.encoding bs).mapError (textRefusal record column) := by
  refine ⟨?_, ?_, fun column bs => ?_⟩
  · intro hencoding
    have hmatches : r.encoding.matchesStorage = true := by
      generalize r.encoding = encoding at hencoding
      cases encoding with
      | latin1 => exact absurd rfl hencoding
      | utf8 => rfl
      | sqlAscii => rfl
    exact keepsText hmatches record row
  · intro hencoding
    exact transcodesText hknown hencoding record row
  · rw [storeText_eq hknown, hknown]

end Known

/-- A character that is cut short, behind one that is whole and in front of
a byte that is none, in a row that holds NULL where it must not. -/
theorem validate_encoding_cut :
    let cut : Bytes := [0x61, 0xE2, 0x82, 0x28]
    let schema : Schema :=
      ⟨[⟨"id", .int32, true, none⟩, ⟨"a", .text, false, none⟩, ⟨"b", .text, false, none⟩,
        ⟨"c", .text, false, none⟩]⟩
    let row : Row :=
      ⟨[.null, .text [0xC3, 0xA9], .text cut, .text [0xFF]], [true, false, false, false]⟩
    let r : Rules := { schema := schema, catalog := .plain }
    let r' : Rules := { schema := schema, catalog := .plain, encoding := .latin1 }
    FirstFault row.values 2 cut ∧ r.KeepsText 7 row ∧ r'.TranscodesText 7 row ∧
      (r.validate 7 row).outcome
        = .error (textRefusal 7 2 "invalid UTF-8 sequence 0xe2 0x82 at byte 2") ∧
      (r'.validate 7 row).outcome = .error (.rejected (.constraint ⟨7, some 0, .notNull⟩)) := by
  intro cut schema row r r'
  have hfault : Utf8.fault? cut = some (1, [0xE2, 0x82]) := by decide +kernel
  have hcut : ¬ Utf8.WellFormed cut := by
    rw [← Utf8.isText_iff, Utf8.isText, hfault]
    exact Bool.false_ne_true
  have hwhole : Utf8.WellFormed [0xC3, 0xA9] := (Utf8.isText_iff _).mp (by decide +kernel)
  have hchecked : Transcoder.checked cut
      = .error "invalid UTF-8 sequence 0xe2 0x82 at byte 2" := by
    rw [Transcoder.checked, hfault]
    rfl
  have hstored : r.storeValues 7 0 row.values
      = (.error (textRefusal 7 2 "invalid UTF-8 sequence 0xe2 0x82 at byte 2"), row.values) := by
    simp only [row, storeValues, storeText_of_wellFormed (r := r) rfl hwhole,
      storeText_eq (r := r) rfl, r, Transcoder.known, hchecked]
    rfl
  refine ⟨.later ?_ (.later ?_ (.here hcut)), ?_, ?_, ?_, rfl⟩
  · intro bs' heq
    cases heq
  · intro bs' heq
    cases heq
    exact hwhole
  · exact (validate_encoding (r := r) rfl 7 row).1 (by decide)
  · exact (validate_encoding (r := r') rfl 7 row).2.1 rfl
  · rw [(Validated.unstored hstored).eq]

end Rules
end Intake
