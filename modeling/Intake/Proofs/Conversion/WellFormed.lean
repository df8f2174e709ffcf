import Intake.Proofs.Conversion.Attempt
import Intake.Proofs.Text.Utf8
/-!
# What an accepted row is like

A row that is handed on has a value and a flag for each column, its flags
tell NULL from the rest, no column that refuses NULL holds it, and its
character data is UTF-8 (`Row.WellFormed`). Building sees to the flags,
since values and flags are only ever written together; the check sees to
the rest, and leaves the flags right because character data stays
character data.

That the stored text is UTF-8 hangs on the transcoder where the input is
not UTF-8 itself: it has to give nothing else (`Transcoder.Sound`), which
the transcoder for the known encodings does.
-/

namespace Intake

/-- A row in which exactly the NULLs are flagged. -/
def Row.Flagged (row : Row) : Prop := row.nulls = row.values.map Value.isNull

/-- A row fit to be handed on. -/
structure Row.WellFormed (schema : Schema) (row : Row) : Prop where
  shaped : row.Shaped schema.width
  flagged : row.Flagged
  notNull : ∀ (i : Nat) (column : Column), schema.columns[i]? = some column →
    column.notNull = true → row.values[i]? ≠ some .null
  text : ∀ bs, .text bs ∈ row.values → Utf8.WellFormed bs

namespace Row

/-! ## Flags -/

theorem flagged_blank (n : Nat) : (blank n).Flagged := by
  show List.replicate n true = (List.replicate n Value.null).map Value.isNull
  rw [List.map_replicate]
  rfl

theorem Flagged.set {row : Row} (h : row.Flagged) (i : Nat) (v : Value) :
    (row.set i v).Flagged := by
  show row.nulls.set i v.isNull = (row.values.set i v).map Value.isNull
  rw [List.map_set, h]

theorem Flagged.store {row : Row} (h : row.Flagged) (i : Nat) (value : Option Value) :
    (row.store i value).Flagged := by
  cases value with
  | none => exact h
  | some v => exact h.set i v

theorem Flagged.putFields {row : Row} (h : row.Flagged) (catalog : Catalog) (record i : Nat)
    (columns : List Column) (fields : List Field) (requests : List Interrupt) :
    (row.putFields catalog record i columns fields requests).row.Flagged := by
  induction columns generalizing row i fields requests with
  | nil => exact h
  | cons column columns ih =>
    obtain ⟨outcome, value, asked, -, heq⟩ := putNext_eq catalog record i column fields
    rw [putFields_cons, heq]
    cases outcome with
    | error e => exact h.store i value
    | ok _ => exact ih (h.store i value) (i + 1) fields.tail (requests ++ asked)

/-- **Building keeps the flags right**, also where it breaks off. -/
theorem Flagged.build {row : Row} (h : row.Flagged) (schema : Schema) (catalog : Catalog)
    (record : Record) : (row.build schema catalog record).row.Flagged := by
  unfold Row.build
  cases record.shortfall with
  | some s => exact h
  | none =>
    dsimp only
    split
    · exact h
    · split
      · exact h.putFields ..
      · exact (flagged_blank schema.width).putFields ..

end Row

/-! ## Transcoders -/

namespace Transcoder

/-- A transcoder that gives nothing but UTF-8. -/
def Sound (t : Transcoder) : Prop :=
  ∀ encoding bs stored, t encoding bs = .ok stored → Utf8.WellFormed stored

/-- What passes the check is what was checked. -/
theorem eq_of_checked {bs stored : Bytes} (h : checked bs = .ok stored) : stored = bs := by
  unfold checked at h
  split at h
  · exact (Except.ok.inj h).symm
  · cases h

theorem wellFormed_of_checked {bs stored : Bytes} (h : checked bs = .ok stored) :
    Utf8.WellFormed stored := by
  unfold checked at h
  split at h
  · next hfault =>
    cases h
    exact (Utf8.isText_iff bs).mp (Option.isNone_iff_eq_none.mpr hfault)
  · cases h

theorem checked_of_wellFormed {bs : Bytes} (h : Utf8.WellFormed bs) : checked bs = .ok bs := by
  have htext := (Utf8.isText_iff bs).mpr h
  rw [checked, Option.isNone_iff_eq_none.mp htext]

theorem sound_known : known.Sound := by
  intro encoding bs stored h
  cases encoding with
  | latin1 =>
    cases h
    exact Utf8.wellFormed_ofLatin1 bs
  | utf8 => exact wellFormed_of_checked h
  | sqlAscii => exact wellFormed_of_checked h

end Transcoder

/-! ## Checking -/

namespace Rules

variable {r : Rules} {record : Nat} {row : Row}

theorem wellFormed_of_storeText (h : r.transcoder.Sound) {i : Nat} {bs stored : Bytes}
    (hstored : r.storeText record i bs = .ok stored) : Utf8.WellFormed stored := by
  unfold storeText at hstored
  split at hstored
  · next hascii =>
    cases hstored
    exact Utf8.wellFormed_of_isAscii hascii
  · dsimp only at hstored
    split at hstored
    · next hconverted =>
      cases hstored
      split at hconverted
      · exact Transcoder.wellFormed_of_checked hconverted
      · exact h _ _ _ hconverted
    · cases hstored

/-- Character data stays character data, and anything else what it is. -/
theorem map_isNull_storeValues (r : Rules) (record i : Nat) (values : List Value) :
    (r.storeValues record i values).2.map Value.isNull = values.map Value.isNull := by
  induction values generalizing i with
  | nil => rfl
  | cons v values ih =>
    cases v with
    | text bs =>
      rw [storeValues]
      cases r.storeText record i bs with
      | error e => rfl
      | ok stored => exact congrArg (false :: ·) (ih (i + 1))
    | _ => exact congrArg (_ :: ·) (ih (i + 1))

theorem wellFormed_of_storeValues (h : r.transcoder.Sound) {i : Nat} {values : List Value}
    (hok : (r.storeValues record i values).1 = .ok ()) :
    ∀ bs, .text bs ∈ (r.storeValues record i values).2 → Utf8.WellFormed bs := by
  induction values generalizing i with
  | nil =>
    intro bs hmem
    cases hmem
  | cons v values ih =>
    cases v with
    | text bs =>
      rw [storeValues] at hok ⊢
      cases hstored : r.storeText record i bs with
      | error e =>
        rw [hstored] at hok
        cases hok
      | ok stored =>
        rw [hstored] at hok
        intro bs' hmem
        rcases List.mem_cons.mp hmem with heq | hmem
        · cases heq
          exact wellFormed_of_storeText h hstored
        · exact ih hok bs' hmem
    | _ =>
      intro bs' hmem
      rcases List.mem_cons.mp hmem with heq | hmem
      · cases heq
      · exact ih (i := i + 1) hok bs' hmem

/-- Character data that is UTF-8 is stored as it is, if that is what the
input is. -/
theorem storeText_of_wellFormed (hmatches : r.encoding.matchesStorage = true) {bs : Bytes}
    (h : Utf8.WellFormed bs) (record i : Nat) : r.storeText record i bs = .ok bs := by
  unfold storeText
  dsimp only
  rw [if_pos hmatches, Transcoder.checked_of_wellFormed h]
  exact ite_self _

theorem storeValues_of_wellFormed (hmatches : r.encoding.matchesStorage = true)
    {values : List Value} (h : ∀ bs, .text bs ∈ values → Utf8.WellFormed bs) (record i : Nat) :
    r.storeValues record i values = (.ok (), values) := by
  induction values generalizing i with
  | nil => rfl
  | cons v values ih =>
    have hrest := ih (fun bs hbs => h bs (List.mem_cons_of_mem v hbs)) (i + 1)
    cases v with
    | text bs =>
      rw [storeValues, storeText_of_wellFormed hmatches (h bs List.mem_cons_self)]
      dsimp only
      rw [hrest]
    | _ => simp only [storeValues, hrest]

/-- No column that refuses NULL is found to be flagged. -/
theorem isNull_of_nullViolation (h : r.nullViolation? row = none) {i : Nat} {column : Column}
    (hcolumn : r.schema.columns[i]? = some column) (hnot : column.notNull = true) :
    row.isNull i = false := by
  have hmem : (column, i) ∈ r.schema.columns.zipIdx :=
    List.mem_zipIdx_iff_getElem?.mpr hcolumn
  have hnone := List.findSome?_eq_none_iff.mp h _ hmem
  dsimp only at hnone
  split at hnone
  · cases hnone
  · next hflag => simpa [hnot] using hflag

/-- A row that has passed the check. -/
theorem validate_ok (h : (r.validate record row).outcome = .ok ()) :
    (r.storeValues record 0 row.values).1 = .ok () ∧
      (r.validate record row).row
        = { row with values := (r.storeValues record 0 row.values).2 } ∧
      r.nullViolation? { row with values := (r.storeValues record 0 row.values).2 } = none := by
  have hvalidated := r.validated record row
  generalize r.validate record row = checked at h hvalidated ⊢
  cases hvalidated with
  | unstored => cases h
  | null => cases h
  | unasked stored nulls =>
    rw [stored]
    exact ⟨rfl, rfl, nulls⟩
  | answered stored nulls =>
    rw [stored]
    exact ⟨rfl, rfl, nulls⟩

/-- **A row that passes the check is well formed**, if its flags were
right before. -/
theorem wellFormed_of_validate (h : r.transcoder.Sound) (hshaped : row.Shaped r.schema.width)
    (hflagged : row.Flagged) (hok : (r.validate record row).outcome = .ok ()) :
    (r.validate record row).row.WellFormed r.schema := by
  have hshaped' : (r.validate record row).row.Shaped r.schema.width := r.shaped_validate hshaped
  obtain ⟨hstored, heq, hnull⟩ := validate_ok hok
  rw [heq] at hshaped' ⊢
  have hflagged' : row.nulls = (r.storeValues record 0 row.values).2.map Value.isNull :=
    hflagged.trans (r.map_isNull_storeValues record 0 row.values).symm
  refine ⟨hshaped', hflagged', fun i column hcolumn hnot hvalue => ?_,
    wellFormed_of_storeValues h hstored⟩
  have hflag := isNull_of_nullViolation hnull hcolumn hnot
  rw [Row.isNull, List.getD_eq_getElem?_getD, hflagged', List.getElem?_map, hvalue] at hflag
  cases hflag

/-- **A record that is accepted is accepted as a well-formed row.** -/
theorem wellFormed_judge (h : r.transcoder.Sound) {x : Record}
    (haccepts : r.accepts x = true) : (r.judge x).row.WellFormed r.schema := by
  have hok := r.outcome_of_accepts haccepts
  have hshaped := (Row.build_alike r.schema r.catalog x (Row.shaped_blank r.schema.width)
    (Row.shaped_blank r.schema.width)).shaped
  have hflagged := (Row.flagged_blank r.schema.width).build r.schema r.catalog x
  unfold judge attempt at hok ⊢
  generalize (Row.blank r.schema.width).build r.schema r.catalog x = built
    at hok hshaped hflagged ⊢
  obtain ⟨e | _, row, requests⟩ := built
  · cases hok
  · exact wellFormed_of_validate h hshaped hflagged hok

/-- The rows that a run gives to its writer are well formed. -/
theorem wellFormed_acceptedRows (h : r.transcoder.Sound) {xs : List Record} {given : Row × Bytes}
    (hgiven : given ∈ r.acceptedRows xs) : given.1.WellFormed r.schema := by
  obtain ⟨x, hx, rfl⟩ := List.mem_map.mp hgiven
  exact wellFormed_judge h (List.mem_filter.mp hx).2

end Rules
end Intake
