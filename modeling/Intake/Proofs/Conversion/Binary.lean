import Mathlib.Data.List.Basic
import Intake.Proofs.Conversion.Default
import Intake.Proofs.Conversion.Spelling
import Intake.Proofs.Layout.Safe
/-!
# Binary whole numbers in typed columns

A whole number of a fixed-width record goes a long way to its column. Its
bytes become a word, the word becomes digits, and the digits are read as a
number of the column's type, which may be narrower than the field or, for
a number without a sign, not reach as far. The number that arrives is the
one that the bytes write, or it is refused, for the field that it is in
(`Row.build_binary`); it is never another one.

The word has the number because the field has no more bytes than the word
(`FieldKind.text?_eq`), and what is read of the digits is the number again
exactly if it is in the range of the type (`ColumnType.read_number`). That
is all there is to the field itself. The record may still be refused for
something else first: it is too short or has too many fields, or a field
before this one is refused (`Row.Reaches`).
-/

namespace Intake

/-! ## Numbers and types -/

/-- The number that the bytes of a field write, if it is a whole number. -/
def FieldKind.number? (kind : FieldKind) (bs : Bytes) : Option Int :=
  match kind with
  | .integer => some (Bytes.signed bs)
  | .unsigned => some (Bytes.unsigned bs)
  | .char | .varchar | .float => none

theorem FieldKind.text_number {kind : FieldKind} {bs : Bytes} {v : Int}
    (h : kind.number? bs = some v) (preserveBlanks : Bool) :
    kind.text preserveBlanks bs = Bytes.ofString (toString v) := by
  cases kind with
  | integer =>
    cases h
    rfl
  | unsigned =>
    cases h
    rfl
  | _ => cases h

namespace ColumnType

/-- How many bits a whole number of the type has beside its sign. -/
def bits? : ColumnType → Option Nat
  | .int16 => some 15
  | .int32 => some 31
  | .int64 => some 63
  | .float64 | .bool | .text => none

/-- The numbers that are in the range of a type of whole numbers. -/
def Fits (t : ColumnType) (v : Int) : Prop :=
  ∀ bits ∈ t.bits?, -(Nat.pow 2 bits : Int) ≤ v ∧ v < Nat.pow 2 bits

instance (t : ColumnType) (v : Int) : Decidable (t.Fits v) :=
  inferInstanceAs (Decidable (∀ bits ∈ t.bits?, -(Nat.pow 2 bits : Int) ≤ v ∧ v < Nat.pow 2 bits))

/-- The wording with which a type refuses a number. -/
def refusal (t : ColumnType) (v : Int) : String :=
  "invalid input syntax for type " ++ t.title ++ ": \"" ++ toString v ++ "\""

end ColumnType

/-- A value of a type of whole numbers, and the number that it is. -/
inductive Value.IsNumber : ColumnType → Int → Value → Prop where
  | int16 {n : Int16} {v : Int} (eq : n.toInt = v) : IsNumber .int16 v (.int16 n)
  | int32 {n : Int32} {v : Int} (eq : n.toInt = v) : IsNumber .int32 v (.int32 n)
  | int64 {n : Int64} {v : Int} (eq : n.toInt = v) : IsNumber .int64 v (.int64 n)

namespace ColumnType

/-- The digits of a number are read as the number, or not at all. -/
theorem integer?_toString (bits : Nat) (v : Int) :
    integer? bits (toString v).toList
      = if -(Nat.pow 2 bits : Int) ≤ v ∧ v < Nat.pow 2 bits then some v else none := by
  have hpos : 0 < Nat.pow 2 bits := Nat.two_pow_pos bits
  unfold integer?
  generalize Nat.pow 2 bits = bound at hpos ⊢
  split
  · next n hread =>
    by_cases hfits : -(bound : Int) ≤ v ∧ v < bound
    · rw [Numeral.readSigned_toString (by omega) (by omega)] at hread
      cases hread
      rw [if_pos hfits]
    · have hbeyond : ¬ (-((bound - 1 : Nat) + 1 : Int) ≤ v ∧ v ≤ (bound - 1 : Nat)) := by omega
      obtain ⟨fault, hfault⟩ := Numeral.readSigned_toString_error hbeyond
      rw [hfault] at hread
      cases hread
  · next fault hread =>
    refine (if_neg fun hfits => ?_).symm
    rw [Numeral.readSigned_toString (by omega) (by omega)] at hread
    cases hread

/-- **A number in the range of a type is read as itself.** -/
theorem valueOf?_of_fits {t : ColumnType} {v : Int} (hwhole : t.bits?.isSome = true)
    (h : t.Fits v) :
    ∃ value, t.valueOf? (toString v).toList = some value ∧ Value.IsNumber t v value := by
  cases t with
  | int16 =>
    have hrange := h 15 rfl
    refine ⟨_, ?_, .int16 (Int16.toInt_ofInt_of_le hrange.1 hrange.2)⟩
    rw [valueOf?, integer?_toString, if_pos hrange, Option.map_some]
  | int32 =>
    have hrange := h 31 rfl
    refine ⟨_, ?_, .int32 (Int32.toInt_ofInt_of_le hrange.1 hrange.2)⟩
    rw [valueOf?, integer?_toString, if_pos hrange, Option.map_some]
  | int64 =>
    have hrange := h 63 rfl
    refine ⟨_, ?_, .int64 (Int64.toInt_ofInt_of_le hrange.1 hrange.2)⟩
    rw [valueOf?, integer?_toString, if_pos hrange, Option.map_some]
  | _ => cases hwhole

/-- Any other number has no value. -/
theorem valueOf?_of_not_fits {t : ColumnType} {v : Int} (h : ¬ t.Fits v) :
    t.valueOf? (toString v).toList = none := by
  have hbeyond : ∀ {bits}, t.bits? = some bits →
      ¬ (-(Nat.pow 2 bits : Int) ≤ v ∧ v < Nat.pow 2 bits) := by
    intro bits hbits hrange
    refine h fun bits' hbits' => ?_
    rw [hbits] at hbits'
    cases hbits'
    exact hrange
  cases t with
  | int16 => rw [valueOf?, integer?_toString, if_neg (hbeyond rfl), Option.map_none]
  | int32 => rw [valueOf?, integer?_toString, if_neg (hbeyond rfl), Option.map_none]
  | int64 => rw [valueOf?, integer?_toString, if_neg (hbeyond rfl), Option.map_none]
  | _ =>
    refine absurd (fun _ hbits => ?_) h
    cases hbits

/-- **The digits of a number are read as the number, or refused**: which of
the two depends on the range of the type alone. -/
theorem read_number {t : ColumnType} (hwhole : t.bits?.isSome = true) (v : Int) :
    (t.Fits v →
        ∃ value, t.read (Bytes.ofString (toString v)) = .ok value ∧ Value.IsNumber t v value) ∧
      (¬ t.Fits v →
        t.read (Bytes.ofString (toString v)) = .error (.invalid (t.refusal v))) := by
  have htext : t ≠ .text := by
    rintro rfl
    cases hwhole
  have hlossy : Utf8.lossy (Bytes.ofString (toString v)) = toString v := by
    have hdecode := Utf8.decode?_ofString (toString v)
    unfold Utf8.decode? at hdecode
    split at hdecode
    · exact Option.some.inj hdecode
    · cases hdecode
  have htrim : Text.trimChars (toString v).toList = (toString v).toList :=
    Text.trimChars_eq_self (Value.Spelled.isBlank_toString v)
  rw [read, if_neg htext, Utf8.decode?_ofString, Option.bind_some, htrim, hlossy]
  constructor
  · intro h
    obtain ⟨value, hvalue, hnumber⟩ := valueOf?_of_fits hwhole h
    rw [hvalue]
    exact ⟨value, rfl, hnumber⟩
  · intro h
    rw [valueOf?_of_not_fits h]
    rfl

end ColumnType

/-! ## Columns -/

/-- An error that is about one field of a record. -/
def RowError.Blames (e : RowError) (record i : Nat) : Prop :=
  ∃ detail, e = .ofParse record (some (i + 1)) detail

theorem RowError.Blames.unique {e : RowError} {record i j : Nat} (h : e.Blames record i)
    (h' : e.Blames record j) : i = j := by
  obtain ⟨detail, rfl⟩ := h
  obtain ⟨detail', heq⟩ := h'
  cases heq
  rfl

namespace Row

variable {record i n : Nat} {row : Row} {column : Column} {columns : List Column}
  {fields : List Field} {requests : List Interrupt}

theorem Shaped.putFields {catalog : Catalog} (h : row.Shaped n) :
    (row.putFields catalog record i columns fields requests).row.Shaped n := by
  induction columns generalizing row i fields requests with
  | nil => exact h
  | cons column columns ih =>
    obtain ⟨outcome, value, asked, -, heq⟩ := putNext_eq catalog record i column fields
    rw [putFields_cons, heq]
    cases outcome with
    | error e => exact h.store i value
    | ok _ => exact ih (h.store i value)

/-- The columns of a table in two parts, one after the other. -/
theorem putFields_append (catalog : Catalog) (before after : List Column) :
    row.putFields catalog record i (before ++ after) fields requests
      = match row.putFields catalog record i before fields requests with
        | ⟨.error e, row, requests⟩ => ⟨.error e, row, requests⟩
        | ⟨.ok (), row, requests⟩ =>
          row.putFields catalog record (i + before.length) after (fields.drop before.length)
            requests := by
  induction before generalizing row i fields requests with
  | nil => rfl
  | cons column before ih =>
    obtain ⟨outcome, value, asked, -, heq⟩ := putNext_eq catalog record i column fields
    rw [List.cons_append, putFields_cons, putFields_cons, heq]
    cases outcome with
    | error e => rfl
    | ok _ =>
      dsimp only
      rw [ih, List.length_cons, List.drop_tail, Nat.add_assoc, Nat.add_comm 1]

/-- A column that is refused is blamed for it. -/
theorem blames_of_putNext {e : RowError}
    (h : (row.putNext .plain record i column fields).outcome = .error e) : e.Blames record i := by
  cases fields with
  | nil =>
    rw [putNext, putDefault] at h
    cases hdefault : column.default with
    | none =>
      rw [hdefault] at h
      cases h
      exact ⟨_, rfl⟩
    | some v =>
      rw [hdefault] at h
      cases h
  | cons f fields =>
    rw [putNext, putField] at h
    split at h
    · cases h
    split at h
    · cases h
    · dsimp only at h
      split at h
      · cases h
      next e' hanswer =>
      obtain ⟨text, rfl⟩ := Catalog.mild_plain.read_error _ _ _ hanswer
      cases h
      exact ⟨text, rfl⟩

/-- And one of them is, if any is refused. -/
theorem blames_of_putFields {e : RowError}
    (h : (row.putFields .plain record i columns fields requests).outcome = .error e) :
    ∃ k, k < columns.length ∧ e.Blames record (i + k) := by
  induction columns generalizing row i fields requests with
  | nil => cases h
  | cons column columns ih =>
    rw [putFields_cons] at h
    cases hnext : row.putNext .plain record i column fields with
    | mk outcome row' asked =>
      rw [hnext] at h
      cases outcome with
      | error e' =>
        cases h
        exact ⟨0, Nat.succ_pos _, blames_of_putNext (congrArg Attempt.outcome hnext)⟩
      | ok _ =>
        obtain ⟨k, hk, hblames⟩ := ih h
        refine ⟨k + 1, Nat.succ_lt_succ hk, ?_⟩
        rwa [← Nat.add_assoc, Nat.add_right_comm]

theorem putField_plain (hcharacter : column.type.isCharacter = false) (bs : Bytes)
    (record i : Nat) (row : Row) :
    row.putField .plain record i column ⟨bs, false⟩
      = match column.type.read bs with
        | .ok v => { outcome := .ok (), row := row.set i v }
        | .error e => { outcome := .error (.ofStorage record (some (i + 1)) e), row := row } := by
  simp only [putField, Field.content?, hcharacter, Bool.false_eq_true, if_false]
  rfl

/-- Digits of a number are stored as the number, or refused. -/
theorem putField_number (hwhole : column.type.bits?.isSome = true) (v : Int) (record i : Nat)
    (row : Row) :
    let attempt := row.putField .plain record i column ⟨Bytes.ofString (toString v), false⟩
    (column.type.Fits v →
        ∃ value, Value.IsNumber column.type v value ∧
          attempt = { outcome := .ok (), row := row.set i value }) ∧
      (¬ column.type.Fits v →
        attempt = { outcome := .error (.ofParse record (some (i + 1)) (column.type.refusal v))
                    row := row }) := by
  have hcharacter : column.type.isCharacter = false := by
    cases htype : column.type with
    | text =>
      rw [htype] at hwhole
      cases hwhole
    | _ => rfl
  obtain ⟨hfits, hbeyond⟩ := ColumnType.read_number hwhole v
  rw [putField_plain hcharacter]
  constructor
  · intro h
    obtain ⟨value, hread, hnumber⟩ := hfits h
    exact ⟨value, hnumber, by rw [hread]⟩
  · intro h
    rw [hbeyond h]
    rfl

/-! ## Rows -/

/-- A record whose field `i` is come to: it is complete, has no field too
many, and the columns before that one are filled. -/
structure Reaches (row : Row) (schema : Schema) (x : Record) (i : Nat) : Prop where
  complete : x.shortfall = none
  room : x.fields.length ≤ schema.width
  before : ((row.fitted schema.width).putFields .plain x.number 0 (schema.columns.take i)
    x.fields []).outcome = .ok ()

variable {schema : Schema} {x : Record}

theorem build_eq_of_room (hcomplete : x.shortfall = none) (hroom : x.fields.length ≤ schema.width)
    (catalog : Catalog) (row : Row) :
    row.build schema catalog x
      = (row.fitted schema.width).putFields catalog x.number 0 schema.columns x.fields [] := by
  rw [build, hcomplete]
  dsimp only
  rw [if_neg (Nat.not_lt.mpr hroom)]
  rfl

theorem columns_eq (h : schema.columns[i]? = some column) :
    schema.columns = schema.columns.take i ++ column :: schema.columns.drop (i + 1) := by
  obtain ⟨hi, heq⟩ := List.getElem?_eq_some_iff.mp h
  rw [← heq, ← List.drop_eq_getElem_cons hi, List.take_append_drop]

/-- A record that is come to is stored from that field on. -/
theorem Reaches.build_eq (h : row.Reaches schema x i) (heven : row.Even)
    (hcolumn : schema.columns[i]? = some column) :
    ∃ mid requests, Shaped schema.width mid ∧
      row.build schema .plain x
        = mid.putFields .plain x.number i (column :: schema.columns.drop (i + 1))
            (x.fields.drop i) requests := by
  have hlength : (schema.columns.take i).length = i :=
    List.length_take_of_le (Nat.le_of_lt (List.getElem?_eq_some_iff.mp hcolumn).1)
  have hshaped : ((row.fitted schema.width).putFields .plain x.number 0 (schema.columns.take i)
      x.fields []).row.Shaped schema.width := (heven.shaped_fitted schema.width).putFields
  have hbefore := h.before
  have hcolumns := columns_eq hcolumn
  generalize schema.columns.drop (i + 1) = rest at hcolumns ⊢
  rw [build_eq_of_room h.complete h.room, hcolumns, putFields_append, hlength, Nat.zero_add]
  generalize (row.fitted schema.width).putFields .plain x.number 0 (schema.columns.take i)
    x.fields [] = attempt at hshaped hbefore ⊢
  obtain ⟨outcome, mid, requests⟩ := attempt
  cases hbefore
  exact ⟨mid, requests, hshaped, rfl⟩

/-- Any other record is refused for something else. -/
theorem refused_of_not_reaches (h : ¬ row.Reaches schema x i)
    (hcolumn : schema.columns[i]? = some column) :
    ∃ e, (row.build schema .plain x).outcome = .error e ∧ ¬ e.Blames x.number i := by
  have hi : i < schema.columns.length := (List.getElem?_eq_some_iff.mp hcolumn).1
  cases hshort : x.shortfall with
  | some s =>
    refine ⟨.ofParse x.number none s.message, by rw [build, hshort], ?_⟩
    rintro ⟨detail, heq⟩
    cases heq
  | none =>
    by_cases hroom : x.fields.length ≤ schema.width
    · rw [build_eq_of_room hshort hroom, columns_eq hcolumn, putFields_append]
      cases hbefore : (row.fitted schema.width).putFields .plain x.number 0
          (schema.columns.take i) x.fields [] with
      | mk outcome mid requests =>
        cases outcome with
        | ok _ => exact absurd ⟨hshort, hroom, congrArg Attempt.outcome hbefore⟩ h
        | error e =>
          obtain ⟨k, hk, hblames⟩ := blames_of_putFields (congrArg Attempt.outcome hbefore)
          rw [List.length_take] at hk
          refine ⟨e, rfl, fun hblames' => ?_⟩
          have hki := hblames.unique hblames'
          omega
    · refine ⟨.ofParse x.number (some (schema.width + 1))
        "extra data after last expected column", ?_, ?_⟩
      · rw [build, hshort]
        dsimp only
        rw [if_pos (Nat.lt_of_not_le hroom)]
      · rintro ⟨detail, heq⟩
        cases heq
        exact Nat.lt_irrefl _ hi

/-! ## Binary numbers -/

/-- What an attempt makes of the number `v` in field `i` of a record, which
is come to or not: that very number in its column, or a refusal of that
very field. -/
structure Exact (attempt : Attempt) (reached : Prop) (record i : Nat) (t : ColumnType) (v : Int) :
    Prop where
  stored : reached → t.Fits v → ∃ value, Value.IsNumber t v value ∧ attempt.row.Holds i value
  refused : reached → ¬ t.Fits v →
    attempt.outcome = .error (.ofParse record (some (i + 1)) (t.refusal v))
  unreached : ¬ reached → ∃ e, attempt.outcome = .error e
  /-- The field is not refused for anything else. -/
  blamed : ∀ e, attempt.outcome = .error e → e.Blames record i → reached ∧ ¬ t.Fits v

/-- **A binary number is stored as it is or refused.** Its bytes are those
of the field, in a record of any width, and its text goes by way of a
word. -/
theorem build_binary {f : FieldSpec} {preserveBlanks : Bool} {bs : Bytes} {v : Int}
    (hbytes : (x.raw.drop f.offset).take f.length = bs)
    (hfield : x.fields[i]? = some (f.read preserveBlanks x.raw))
    (hnumber : f.kind.number? bs = some v) (htakes : f.kind.Takes bs.length)
    (hnull : f.nullIf.any (f.kind.matchesPattern bs) = false)
    (hcolumn : schema.columns[i]? = some column) (hwhole : column.type.bits?.isSome = true)
    (heven : row.Even) :
    f.kind.text? preserveBlanks bs = some (Bytes.ofString (toString v)) ∧
      Exact (row.build schema .plain x) (row.Reaches schema x i) x.number i column.type v := by
  have htext := FieldKind.text_number hnumber preserveBlanks
  refine ⟨htext ▸ FieldKind.text?_eq htakes preserveBlanks, ?_⟩
  have hread : f.read preserveBlanks x.raw = ⟨Bytes.ofString (toString v), false⟩ := by
    rw [FieldSpec.read, hbytes, FieldSpec.decode, hnull, if_neg Bool.false_ne_true, htext]
  have hfields : x.fields.drop i
      = ⟨Bytes.ofString (toString v), false⟩ :: x.fields.drop (i + 1) := by
    obtain ⟨hi, heq⟩ := List.getElem?_eq_some_iff.mp hfield
    rw [List.drop_eq_getElem_cons hi, heq, hread]
  have hi : i < schema.width := (List.getElem?_eq_some_iff.mp hcolumn).1
  by_cases hreaches : row.Reaches schema x i
  · obtain ⟨mid, requests, hmid, hbuild⟩ := hreaches.build_eq heven hcolumn
    obtain ⟨hfits, hbeyond⟩ := putField_number hwhole v x.number i mid
    rw [hfields, putFields_cons, putNext] at hbuild
    by_cases hrange : column.type.Fits v
    · obtain ⟨value, hvalue, hput⟩ := hfits hrange
      rw [hput] at hbuild
      dsimp only at hbuild
      rw [hbuild]
      refine ⟨fun _ _ => ⟨value, hvalue, ?_⟩, fun _ h => absurd hrange h,
        fun h => absurd hreaches h, fun e he hblames => ?_⟩
      · exact (hmid.holds_set hi value).putFields (Nat.lt_succ_self i)
      · -- Columns behind this one are blamed for nothing but themselves.
        obtain ⟨k, -, hblames'⟩ := blames_of_putFields he
        have hik := hblames.unique hblames'
        omega
    · rw [hbeyond hrange] at hbuild
      rw [hbuild]
      exact ⟨fun _ h => absurd h hrange, fun _ _ => rfl, fun h => absurd hreaches h,
        fun _ _ _ => ⟨hreaches, hrange⟩⟩
  · obtain ⟨e, houtcome, hblames⟩ := refused_of_not_reaches hreaches hcolumn
    refine ⟨fun h => absurd h hreaches, fun h => absurd h hreaches, fun _ => ⟨e, houtcome⟩,
      fun e' he' hblames' => ?_⟩
    rw [houtcome] at he'
    cases he'
    exact absurd hblames' hblames

/-- The least number of two bytes, and the least of eight bytes without a
sign that is none with one. -/
theorem build_binary_boundary :
    let low : FieldSpec := ⟨.integer, 0, 2, none⟩
    let high : FieldSpec := ⟨.unsigned, 2, 8, none⟩
    let raw : Bytes := [0, 0x80, 0, 0, 0, 0, 0, 0, 0, 0x80]
    let x : Record := ⟨1, raw, [low.read false raw, high.read false raw], none⟩
    let schema : Schema := ⟨[⟨"a", .int16, false, none⟩, ⟨"b", .int64, false, none⟩]⟩
    let attempt := (blank 2).build schema .plain x
    (∃ value, Value.IsNumber .int16 (-32768) value ∧ attempt.row.Holds 0 value) ∧
      attempt.outcome = .error (.ofParse 1 (some 2)
        "invalid input syntax for type bigint: \"9223372036854775808\"") := by
  intro low high raw x schema attempt
  have hint : schema.columns[0]? = some ⟨"a", .int16, false, none⟩ := rfl
  have hbig : schema.columns[1]? = some ⟨"b", .int64, false, none⟩ := rfl
  have hlow : _ ∧ Exact attempt ((blank 2).Reaches schema x 0) 1 0 .int16 (-32768) :=
    build_binary (f := low) (x := x) rfl rfl rfl (by decide) rfl hint rfl (shaped_blank 2).even
  have hhigh : _ ∧ Exact attempt ((blank 2).Reaches schema x 1) 1 1 .int64 9223372036854775808 :=
    build_binary (f := high) (x := x) rfl rfl rfl (by decide) rfl hbig rfl (shaped_blank 2).even
  have hbefore : (((blank 2).fitted 2).putFields .plain 1 0 (schema.columns.take 1) x.fields
      []).outcome = .ok () := by decide +kernel
  exact ⟨hlow.2.stored ⟨rfl, by decide, rfl⟩ (by decide),
    hhigh.2.refused ⟨rfl, by decide, hbefore⟩ (by decide)⟩

end Row
end Intake
