import Intake.Layout.Notation
import Intake.Proofs.Layout.Fitting
import Intake.Proofs.Numeral.Word
import Intake.Record.Fixed
/-!
# Layouts that a machine can follow

A layout says where the fields of a record are, and a reader that follows
it adds places, cuts slices and reads numbers by way of words. A machine
does not do all of this for any numbers: a sum is a size only up to the
greatest place, a slice lies within the record, and a word has eight
bytes. Here is what such a reader does with each step refused where the
machine cannot take it (`FieldSpec.read?`, `FixedReader.start?`); a layout
is safe if no step is refused, and then every field is what it was meant
to be (`Layout.Safe`).

Being accepted is not enough. The ends of the fields are sums and their
bytes are in the record. But the arena needs a byte more than the record,
which is no size if the record is as long as a size can be; and the length
of a number is checked where the layout is read from its notation, and
nowhere else. There is no other reason (`Layout.safe_iff_of_accepted`), so
layouts that have a notation are safe but for the longest records
(`Layout.safe_iff_of_specs`).
-/

namespace Intake

/-! ## Steps that can be refused -/

/-- The sum of two sizes, if there is such a size. -/
def Layout.sum? (m n : Nat) : Option Nat := if m + n ≤ maxPlace then some (m + n) else none

/-- The bytes between two places, if these are in order and not beyond the
last byte. -/
def Bytes.between? (bs : Bytes) (start stop : Nat) : Option Bytes :=
  if start ≤ stop ∧ stop ≤ bs.length then some ((bs.take stop).drop start) else none

/-- The text of a field's bytes, where numbers go by way of a word. -/
def FieldKind.text? (kind : FieldKind) (preserveBlanks : Bool) (bs : Bytes) : Option Bytes :=
  match kind with
  | .char | .varchar => some (kind.text preserveBlanks bs)
  | .integer => (Bytes.signedWord? bs).map fun w => Bytes.ofString (toString w.toInt)
  | .unsigned => (Bytes.unsignedWord? bs).map fun w => Bytes.ofString (toString w.toNat)
  | .float =>
    if bs.length = 4 then some (Bytes.ofString (Numeral.binary32.text (Bytes.unsigned bs)))
    else
      (Bytes.unsignedWord? bs).map fun w => Bytes.ofString (Numeral.binary64.text w.toNat)

/-- The field of a complete record, read step by step. -/
def FieldSpec.read? (f : FieldSpec) (preserveBlanks : Bool) (record : Bytes) : Option Field :=
  match Layout.sum? f.offset f.length with
  | none => none
  | some stop =>
    match record.between? f.offset stop with
    | none => none
    | some bs =>
      if f.nullIf.any (f.kind.matchesPattern bs) then some ⟨[], true⟩
      else (f.kind.text? preserveBlanks bs).map fun text => ⟨text, false⟩

/-- A reader, if there is a size for its arena: that of a record and the
byte that is kept free. -/
def FixedReader.start? (source : ByteSource) (layout : Layout) (preserveBlanks : Bool)
    (bufferSize maxBufferSize : Nat) : Option FixedReader :=
  (Layout.sum? layout.stride 1).map fun least =>
    { source := source
      buffer := Buffer.ofSizes (max bufferSize least) (max maxBufferSize least)
      layout := layout
      preserveBlanks := preserveBlanks }

/-- A layout that can be followed without a step being refused, by a reader
that comes to the fields that are meant. -/
structure Layout.Safe (layout : Layout) : Prop where
  starts : ∀ source preserveBlanks bufferSize maxBufferSize,
    FixedReader.start? source layout preserveBlanks bufferSize maxBufferSize
      = some (FixedReader.start source layout preserveBlanks bufferSize maxBufferSize)
  reads : ∀ preserveBlanks record, record.length = layout.stride → ∀ f ∈ layout.fields,
    f.read? preserveBlanks record = some (f.read preserveBlanks record)
  /-- Every field has a length with which its bytes, whatever they are,
  have a text. -/
  lengths : ∀ f ∈ layout.fields, ∀ preserveBlanks bs, bs.length = f.length →
    (f.kind.text? preserveBlanks bs).isSome = true

/-! ## When they are not refused -/

theorem Layout.sum?_eq {m n : Nat} (h : m + n ≤ maxPlace) : sum? m n = some (m + n) := if_pos h

theorem Layout.sum?_eq_none {m n : Nat} (h : maxPlace < m + n) : sum? m n = none :=
  if_neg (Nat.not_le.mpr h)

theorem FixedReader.start?_eq_iff (layout : Layout) :
    (∀ source preserveBlanks bufferSize maxBufferSize,
      start? source layout preserveBlanks bufferSize maxBufferSize
        = some (start source layout preserveBlanks bufferSize maxBufferSize))
      ↔ layout.stride < Layout.maxPlace := by
  constructor
  · intro h
    refine Nat.lt_of_not_le fun hle => ?_
    have hnone := h { rest := [] } false 0 0
    rw [start?, Layout.sum?_eq_none (Nat.lt_succ_of_le hle)] at hnone
    cases hnone
  · intro h source preserveBlanks bufferSize maxBufferSize
    rw [start?, Layout.sum?_eq h]
    rfl

/-- The lengths with which bytes of a kind have a text. -/
def FieldKind.Takes (kind : FieldKind) (length : Nat) : Prop :=
  match kind with
  | .char | .varchar => True
  | .integer => 0 < length ∧ length ≤ 8
  | .unsigned | .float => length ≤ 8

instance (kind : FieldKind) (length : Nat) : Decidable (kind.Takes length) :=
  match kind with
  | .char | .varchar => inferInstanceAs (Decidable True)
  | .integer => inferInstanceAs (Decidable (0 < length ∧ length ≤ 8))
  | .unsigned | .float => inferInstanceAs (Decidable (length ≤ 8))

theorem FieldKind.isSome_text? (kind : FieldKind) (preserveBlanks : Bool) (bs : Bytes) :
    (kind.text? preserveBlanks bs).isSome = true ↔ kind.Takes bs.length := by
  cases kind with
  | char => exact iff_of_true rfl trivial
  | varchar => exact iff_of_true rfl trivial
  | integer =>
    rw [text?, Option.isSome_map]
    exact Bytes.isSome_signedWord? bs
  | unsigned =>
    rw [text?, Option.isSome_map]
    exact Bytes.isSome_unsignedWord? bs
  | float =>
    rw [text?]
    split
    · next hfour => exact iff_of_true rfl (show bs.length ≤ 8 by omega)
    · rw [Option.isSome_map]
      exact Bytes.isSome_unsignedWord? bs

/-- By way of a word the text is the same. -/
theorem FieldKind.text?_eq {kind : FieldKind} {bs : Bytes} (h : kind.Takes bs.length)
    (preserveBlanks : Bool) :
    kind.text? preserveBlanks bs = some (kind.text preserveBlanks bs) := by
  cases kind with
  | char => rfl
  | varchar => rfl
  | integer =>
    obtain ⟨w, hword, hw⟩ := Bytes.signedWord?_eq h.1 h.2
    rw [text?, hword, Option.map_some, hw]
    rfl
  | unsigned =>
    obtain ⟨w, hword, hw⟩ := Bytes.unsignedWord?_eq h
    rw [text?, hword, Option.map_some, hw]
    rfl
  | float =>
    rw [text?, text]
    split
    · rfl
    · obtain ⟨w, hword, hw⟩ := Bytes.unsignedWord?_eq h
      rw [hword, Option.map_some, hw]

/-- A field within a record is read as it is meant if its length is one
that is taken. -/
theorem FieldSpec.read?_eq {f : FieldSpec} (htakes : f.kind.Takes f.length)
    (hplace : f.stop ≤ Layout.maxPlace) {record : Bytes} (hin : f.stop ≤ record.length)
    (preserveBlanks : Bool) :
    f.read? preserveBlanks record = some (f.read preserveBlanks record) := by
  have hslice : (record.take (f.offset + f.length)).drop f.offset
      = (record.drop f.offset).take f.length := by
    rw [List.drop_take, Nat.add_sub_cancel_left]
  have hlength : ((record.drop f.offset).take f.length).length = f.length := by
    unfold stop at hin
    rw [List.length_take, List.length_drop]
    omega
  have hbetween : record.between? f.offset (f.offset + f.length)
      = some ((record.drop f.offset).take f.length) := by
    rw [Bytes.between?, if_pos ⟨Nat.le_add_right _ _, hin⟩, hslice]
  rw [read?, Layout.sum?_eq hplace]
  dsimp only
  rw [hbetween]
  dsimp only
  rw [FieldKind.text?_eq (hlength.symm ▸ htakes), read, decode]
  split <;> rfl

/-! ## Layouts that are accepted -/

namespace Layout

/-- **What makes an accepted layout safe**: a record is shorter than a size
can be, and each number has a length that a word can hold. -/
theorem safe_iff_of_accepted {fields : List FieldSpec} {stride : Option Nat} {layout : Layout}
    (h : ofFields fields stride = .ok layout) :
    layout.Safe ↔ layout.stride < maxPlace ∧ ∀ f ∈ layout.fields, f.kind.Takes f.length := by
  constructor
  · refine fun hsafe => ⟨(FixedReader.start?_eq_iff layout).mp hsafe.starts, fun f hf => ?_⟩
    have hzeros : (List.replicate f.length (0 : UInt8)).length = f.length := List.length_replicate
    have hsome := hsafe.lengths f hf false _ hzeros
    exact hzeros ▸ (f.kind.isSome_text? false _).mp hsome
  · rintro ⟨hstride, htakes⟩
    refine ⟨(FixedReader.start?_eq_iff layout).mpr hstride,
      fun preserveBlanks record hrecord f hf => ?_, fun f hf preserveBlanks bs hbs => ?_⟩
    · obtain ⟨hplace, hin⟩ := stop_le_of_ofFields h hf
      exact FieldSpec.read?_eq (htakes f hf) hplace (hrecord.symm ▸ hin) preserveBlanks
    · exact (f.kind.isSome_text? preserveBlanks bs).mpr (hbs.symm ▸ htakes f hf)

end Layout

/-! ## Layouts that have a notation -/

/-- The lengths that fields of a kind are meant to have. -/
def FieldKind.Sized (kind : FieldKind) (length : Nat) : Prop :=
  match kind with
  | .char | .varchar => True
  | .integer | .unsigned => length ∈ [1, 2, 4, 8]
  | .float => length ∈ [4, 8]

theorem FieldKind.Sized.takes {kind : FieldKind} {length : Nat} (h : kind.Sized length) :
    kind.Takes length := by
  cases kind with
  | char => trivial
  | varchar => trivial
  | integer =>
    simp only [Sized, List.mem_cons, List.not_mem_nil, or_false] at h
    exact ⟨by omega, by omega⟩
  | unsigned =>
    simp only [Sized, List.mem_cons, List.not_mem_nil, or_false] at h
    show length ≤ 8
    omega
  | float =>
    simp only [Sized, List.mem_cons, List.not_mem_nil, or_false] at h
    show length ≤ 8
    omega

namespace Layout

theorem sized_of_checkLength {kind : FieldKind} {offset length : Nat}
    (h : checkLength kind offset length = .ok ()) : kind.Sized length := by
  unfold checkLength at h
  split at h
  · cases h
  split at h
  · cases h
  have hwidth : ∀ {widths : List Nat} {message : String},
      (if widths.contains length then Except.ok () else .error message) = .ok () →
        length ∈ widths := by
    intro widths message hok
    split at hok
    · next hmem => exact List.contains_iff_mem.mp hmem
    · cases hok
  cases kind with
  | char => trivial
  | varchar => trivial
  | integer => exact hwidth h
  | unsigned => exact hwidth h
  | float => exact hwidth h

/-- The length of a field is checked where it is read. -/
theorem sized_of_readField {next : Nat} {spec : String} {f : FieldSpec}
    (h : readField next spec = .ok f) : f.kind.Sized f.length := by
  unfold readField at h
  split at h
  · cases h
  split at h
  · cases h
  split at h
  · cases h
  split at h
  · cases h
  next rest _ _ hcheck =>
  cases hnull : nullIf rest with
  | error m =>
    rw [hnull] at h
    cases h
  | ok pattern =>
    rw [hnull] at h
    cases h
    exact sized_of_checkLength hcheck

theorem sized_of_readFields {column next : Nat} {specs : List String} {fields : List FieldSpec}
    (h : readFields column next specs = .ok fields) : ∀ f ∈ fields, f.kind.Sized f.length := by
  induction specs generalizing column next fields with
  | nil =>
    cases h
    exact fun f hf => absurd hf List.not_mem_nil
  | cons spec specs ih =>
    rw [readFields] at h
    split at h
    · cases h
    next f hfield =>
    cases hrest : readFields (column + 1) f.stop specs with
    | error e =>
      rw [hrest] at h
      cases h
    | ok rest =>
      rw [hrest] at h
      cases h
      exact List.forall_mem_cons.mpr ⟨sized_of_readField hfield, ih hrest⟩

/-- **A layout that has a notation is safe**, if its records are shorter
than a size can be: its fields have the lengths they are meant to have. -/
theorem safe_iff_of_specs {specs : List String} {stride : Option Nat} {layout : Layout}
    (h : ofNotation specs stride = .ok layout) :
    (layout.Safe ↔ layout.stride < maxPlace) ∧ ∀ f ∈ layout.fields, f.kind.Sized f.length := by
  unfold ofNotation at h
  split at h
  · cases h
  next fields hfields =>
  have hsized : ∀ f ∈ layout.fields, f.kind.Sized f.length := by
    obtain ⟨-, -, -, -, -, rfl⟩ := ofFields_eq_ok_iff.mp h
    exact sized_of_readFields hfields
  exact ⟨(safe_iff_of_accepted h).trans (and_iff_left fun f hf => (hsized f hf).takes), hsized⟩

/-! ## Which layouts are safe -/

/-- **An accepted layout is safe except for two reasons.** Its records may
be as long as a size can be, so that there is none for the arena; or it
was not written, and a number has a length that no word can hold. -/
theorem safe_iff (layout : Layout) :
    (∀ fields stride, ofFields fields stride = .ok layout →
      (layout.Safe ↔
        layout.stride < maxPlace ∧ ∀ f ∈ layout.fields, f.kind.Takes f.length)) ∧
      ∀ specs stride, ofNotation specs stride = .ok layout →
        (layout.Safe ↔ layout.stride < maxPlace) ∧
          ∀ f ∈ layout.fields, f.kind.Sized f.length :=
  ⟨fun _ _ => safe_iff_of_accepted, fun _ _ => safe_iff_of_specs⟩

/-- The longest records that a reader can be made for, with a number at
their end, and numbers of a length that has no notation. -/
theorem safe_iff_longest :
    (ofFields [⟨.unsigned, 4, 3, none⟩, ⟨.integer, 0, 3, none⟩] none
        = .ok ⟨[⟨.unsigned, 4, 3, none⟩, ⟨.integer, 0, 3, none⟩], 7⟩ ∧
      Safe ⟨[⟨.unsigned, 4, 3, none⟩, ⟨.integer, 0, 3, none⟩], 7⟩) ∧
      ofNotation ["BIGINT(18446744073709551606+8)"] none
          = .ok ⟨[⟨.integer, 18446744073709551606, 8, none⟩], 18446744073709551614⟩ ∧
        Safe ⟨[⟨.integer, 18446744073709551606, 8, none⟩], 18446744073709551614⟩ := by
  have hshort : ofFields [⟨.unsigned, 4, 3, none⟩, ⟨.integer, 0, 3, none⟩] none
      = .ok ⟨[⟨.unsigned, 4, 3, none⟩, ⟨.integer, 0, 3, none⟩], 7⟩ :=
    ofFields_eq_ok_iff.mpr ((made_iff (by decide)).mpr ⟨by decide, rfl⟩)
  have hlong : ofNotation ["BIGINT(18446744073709551606+8)"] none
      = .ok ⟨[⟨.integer, 18446744073709551606, 8, none⟩], 18446744073709551614⟩ := by
    have hread : readFields 1 0 ["BIGINT(18446744073709551606+8)"]
        = .ok [⟨.integer, 18446744073709551606, 8, none⟩] := by rfl
    rw [ofNotation, hread]
    exact ofFields_eq_ok_iff.mpr ((made_iff (by decide)).mpr ⟨by decide, rfl⟩)
  exact ⟨⟨hshort, ((safe_iff _).1 _ _ hshort).mpr ⟨by decide, by decide⟩⟩, hlong,
    ((safe_iff _).2 _ _ hlong).1.mpr (by decide)⟩

/-- Records of the greatest size, and a number of nine bytes: both layouts
are accepted and neither is safe. -/
theorem accepted_not_safe :
    (∃ layout, ofNotation ["CHAR(1)"] (some maxPlace) = .ok layout ∧ ¬ layout.Safe) ∧
      ∃ layout, ofFields [⟨.integer, 0, 9, none⟩] none = .ok layout ∧ ¬ layout.Safe := by
  constructor
  · have hok : ofNotation ["CHAR(1)"] (some maxPlace) = .ok ⟨[⟨.char, 0, 1, none⟩], maxPlace⟩ := by
      have hread : readFields 1 0 ["CHAR(1)"] = .ok [⟨.char, 0, 1, none⟩] := by rfl
      rw [ofNotation, hread]
      exact ofFields_eq_ok_iff.mpr ((made_iff (by decide)).mpr ⟨by decide, rfl⟩)
    exact ⟨_, hok, fun hsafe =>
      Nat.lt_irrefl maxPlace ((safe_iff_of_specs hok).1.mp hsafe)⟩
  · have hok : ofFields [⟨.integer, 0, 9, none⟩] none = .ok ⟨[⟨.integer, 0, 9, none⟩], 9⟩ :=
      ofFields_eq_ok_iff.mpr ((made_iff (by decide)).mpr ⟨by decide, rfl⟩)
    refine ⟨_, hok, fun hsafe => ?_⟩
    have htakes := ((safe_iff_of_accepted hok).mp hsafe).2 _ List.mem_cons_self
    exact absurd htakes.2 (by decide)

end Layout
end Intake
