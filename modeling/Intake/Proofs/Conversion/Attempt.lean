import Intake.Conversion.Checking
/-!
# One row for all records

A run has one row, which every record is converted into after the one
before it, and a record that fails leaves half of itself there. What
becomes of a record does not depend on that (`Rules.attempt_of_shaped`):
the outcome, the requests to stop and, of a record that is accepted, the
row are those that a row of NULLs would have led to. So it can be said of
a record by itself whether it is accepted, and as what
(`Rules.judge`).

Besides, a catalog that only ever calls values unacceptable neither stops
a run nor asks for it to be stopped (`Rules.attempt_of_mild`).
-/

namespace Intake
namespace Row

/-- A row with a value and a flag for each of some number of columns. -/
structure Shaped (n : Nat) (row : Row) : Prop where
  values : row.values.length = n
  nulls : row.nulls.length = n

theorem shaped_blank (n : Nat) : Shaped n (blank n) :=
  ⟨List.length_replicate, List.length_replicate⟩

theorem Shaped.set {n : Nat} {row : Row} (h : Shaped n row) (i : Nat) (v : Value) :
    Shaped n (row.set i v) :=
  ⟨List.length_set.trans h.values, List.length_set.trans h.nulls⟩

/-- Two rows that have the same columns before one. -/
structure Agree (i : Nat) (row row' : Row) : Prop where
  values : row.values.take i = row'.values.take i
  nulls : row.nulls.take i = row'.nulls.take i

theorem agree_zero (row row' : Row) : Agree 0 row row' := ⟨rfl, rfl⟩

theorem Agree.eq {n : Nat} {row row' : Row} (h : Agree n row row') (hn : Shaped n row)
    (hn' : Shaped n row') : row = row' := by
  obtain ⟨values, nulls⟩ := row
  obtain ⟨values', nulls'⟩ := row'
  have hvalues := h.values
  have hnulls := h.nulls
  rw [List.take_of_length_le (Nat.le_of_eq hn.values),
    List.take_of_length_le (Nat.le_of_eq hn'.values)] at hvalues
  rw [List.take_of_length_le (Nat.le_of_eq hn.nulls),
    List.take_of_length_le (Nat.le_of_eq hn'.nulls)] at hnulls
  rw [show values = values' from hvalues, show nulls = nulls' from hnulls]

theorem take_succ_set {α : Type} {xs : List α} {i : Nat} (h : i < xs.length) (x : α) :
    (xs.set i x).take (i + 1) = xs.take i ++ [x] := by
  rw [List.set_eq_take_append_cons_drop, if_pos h, List.append_cons]
  exact List.take_left' (by simp [Nat.min_eq_left (Nat.le_of_lt h)])

/-- Storing the same value in the next column. -/
theorem Agree.set {n i : Nat} {row row' : Row} (h : Agree i row row') (hn : Shaped n row)
    (hn' : Shaped n row') (hi : i < n) (v : Value) :
    Agree (i + 1) (row.set i v) (row'.set i v) where
  values := by
    show (row.values.set i v).take (i + 1) = (row'.values.set i v).take (i + 1)
    rw [take_succ_set (hn.values ▸ hi), take_succ_set (hn'.values ▸ hi), h.values]
  nulls := by
    show (row.nulls.set i v.isNull).take (i + 1) = (row'.nulls.set i v.isNull).take (i + 1)
    rw [take_succ_set (hn.nulls ▸ hi), take_succ_set (hn'.nulls ▸ hi), h.nulls]

/-! ## Building -/

/-- A row with a value stored in a column, if there is one to store. -/
def store (row : Row) (i : Nat) (value : Option Value) : Row := value.elim row (row.set i)

theorem Shaped.store {n : Nat} {row : Row} (h : Shaped n row) (i : Nat) (value : Option Value) :
    Shaped n (row.store i value) := by
  cases value with
  | none => exact h
  | some v => exact h.set i v

/-- What becomes of one column does not depend on the row. -/
theorem putField_eq (catalog : Catalog) (record i : Nat) (column : Column) (f : Field) :
    ∃ outcome value requests, (outcome = .ok () → value ≠ none) ∧
      ∀ row : Row,
        row.putField catalog record i column f = ⟨outcome, row.store i value, requests⟩ := by
  cases hcontent : f.content? with
  | none =>
    exact ⟨.ok (), some .null, [], nofun, fun row => by rw [putField, hcontent]; rfl⟩
  | some bs =>
    by_cases hcharacter : column.type.isCharacter
    · exact ⟨.ok (), some (.text bs), [], nofun, fun row => by
        simp only [putField, hcontent, hcharacter, if_true]
        rfl⟩
    · cases hanswer : (catalog.read column bs).answer with
      | ok v =>
        exact ⟨.ok (), some v, (catalog.read column bs).requests, nofun, fun row => by
          simp only [putField, hcontent, hcharacter, hanswer]
          rfl⟩
      | error e =>
        exact ⟨.error (.ofStorage record (some (i + 1)) e), none,
          (catalog.read column bs).requests, nofun, fun row => by
            simp only [putField, hcontent, hcharacter, hanswer]
            rfl⟩

end Row

/-- What is stored in the next column: a field, or the default. -/
def Row.putNext (row : Row) (catalog : Catalog) (record i : Nat) (column : Column)
    (fields : List Field) : Attempt :=
  match fields with
  | f :: _ => row.putField catalog record i column f
  | [] => row.putDefault record i column

theorem Row.putFields_cons (row : Row) (catalog : Catalog) (record i : Nat) (column : Column)
    (columns : List Column) (fields : List Field) (requests : List Interrupt) :
    row.putFields catalog record i (column :: columns) fields requests
      = match row.putNext catalog record i column fields with
        | ⟨.error e, row, asked⟩ => ⟨.error e, row, requests ++ asked⟩
        | ⟨.ok (), row, asked⟩ =>
          row.putFields catalog record (i + 1) columns fields.tail (requests ++ asked) := by
  cases fields with
  | cons f fields =>
    rw [putFields.eq_def, putNext]
    dsimp only
    generalize row.putField catalog record i column f = attempt
    obtain ⟨_ | _, row, asked⟩ := attempt <;> rfl
  | nil =>
    rw [putFields.eq_def, putNext]
    dsimp only
    generalize row.putDefault record i column = attempt
    obtain ⟨_ | _, row, asked⟩ := attempt <;> rfl

theorem Row.putNext_eq (catalog : Catalog) (record i : Nat) (column : Column)
    (fields : List Field) :
    ∃ outcome value requests, (outcome = .ok () → value ≠ none) ∧ ∀ row : Row,
      row.putNext catalog record i column fields = ⟨outcome, row.store i value, requests⟩ := by
  cases fields with
  | cons f fields => exact putField_eq catalog record i column f
  | nil =>
    cases hdefault : column.default with
    | none =>
      refine ⟨.error (.ofParse record (some (i + 1))
        ("missing data for column \"" ++ column.name ++ "\"")), none, [], nofun, fun row => ?_⟩
      rw [putNext, putDefault, hdefault]
      rfl
    | some v =>
      exact ⟨.ok (), some v, [], nofun, fun row => by rw [putNext, putDefault, hdefault]; rfl⟩

/-- Two attempts at one record: what they come to is the same, and so is
the row of a record that is accepted. -/
structure Attempt.Alike (n : Nat) (a b : Attempt) : Prop where
  outcome : a.outcome = b.outcome
  requests : a.requests = b.requests
  row : a.outcome = .ok () → a.row = b.row
  shaped : a.row.Shaped n
  shaped' : b.row.Shaped n

namespace Row

/-- Every column is overwritten, so it does not matter what was there. -/
theorem putFields_alike (catalog : Catalog) (record : Nat) {n : Nat} {columns : List Column}
    {i : Nat} (hi : i + columns.length = n) {row row' : Row} (hn : Shaped n row)
    (hn' : Shaped n row') (hagree : Agree i row row') (fields : List Field)
    (requests : List Interrupt) :
    (row.putFields catalog record i columns fields requests).Alike n
      (row'.putFields catalog record i columns fields requests) := by
  induction columns generalizing i row row' fields requests with
  | nil =>
    obtain rfl : i = n := hi
    exact ⟨rfl, rfl, fun _ => hagree.eq hn hn', hn, hn'⟩
  | cons column columns ih =>
    obtain ⟨outcome, value, asked, hsome, heq⟩ := putNext_eq catalog record i column fields
    rw [putFields_cons, putFields_cons, heq, heq]
    cases outcome with
    | error e => exact ⟨rfl, rfl, nofun, hn.store i value, hn'.store i value⟩
    | ok _ =>
      obtain ⟨v, rfl⟩ := Option.ne_none_iff_exists'.mp (hsome rfl)
      rw [List.length_cons] at hi
      exact ih (by omega) (hn.set i v) (hn'.set i v) (hagree.set hn hn' (by omega) v) _ _

theorem build_alike (schema : Schema) (catalog : Catalog) (record : Record) {row row' : Row}
    (hn : Shaped schema.width row) (hn' : Shaped schema.width row') :
    (row.build schema catalog record).Alike schema.width (row'.build schema catalog record) := by
  unfold build
  cases record.shortfall with
  | some s => exact ⟨rfl, rfl, nofun, hn, hn'⟩
  | none =>
    dsimp only
    split
    · exact ⟨rfl, rfl, nofun, hn, hn'⟩
    · rw [if_pos (show row.width = schema.width from hn.values),
        if_pos (show row'.width = schema.width from hn'.values)]
      exact putFields_alike catalog record.number (Nat.zero_add _) hn hn' (agree_zero row row') _ _

end Row

/-! ## Checking -/

namespace Rules

variable (r : Rules)

theorem length_storeValues (record i : Nat) (values : List Value) :
    (r.storeValues record i values).2.length = values.length := by
  induction values generalizing i with
  | nil => rfl
  | cons v values ih =>
    cases v with
    | text bs =>
      rw [storeValues]
      cases r.storeText record i bs with
      | error e => rfl
      | ok stored => exact congrArg (· + 1) (ih (i + 1))
    | _ => exact congrArg (· + 1) (ih (i + 1))

/-- What checking a row comes to. The values are replaced by their stored
forms in any case. -/
inductive Validated (record : Nat) (row : Row) : Attempt → Prop where
  /-- A text has no stored form. -/
  | unstored {e : RowError} {values : List Value}
      (stored : r.storeValues record 0 row.values = (.error e, values)) :
      Validated record row { outcome := .error e, row := { row with values := values } }
  | null {values : List Value} {i : Nat}
      (stored : r.storeValues record 0 row.values = (.ok (), values))
      (nulls : r.nullViolation? { row with values := values } = some i) :
      Validated record row
        { outcome := .error (.rejected (.constraint ⟨record, some i, .notNull⟩))
          row := { row with values := values } }
  /-- The catalog is not asked. -/
  | unasked {values : List Value}
      (stored : r.storeValues record 0 row.values = (.ok (), values))
      (nulls : r.nullViolation? { row with values := values } = none)
      (asked : r.checkConstraints = false) :
      Validated record row { outcome := .ok (), row := { row with values := values } }
  | answered {values : List Value} {answer : Except StorageError Unit}
      (stored : r.storeValues record 0 row.values = (.ok (), values))
      (nulls : r.nullViolation? { row with values := values } = none)
      (asked : r.checkConstraints = true)
      (answers : (r.catalog.check r.schema { row with values := values }).answer = answer) :
      Validated record row
        { outcome := answer.mapError (refusal record)
          row := { row with values := values }
          requests := (r.catalog.check r.schema { row with values := values }).requests }

section Validated

variable {r} {record : Nat} {row : Row} {attempt : Attempt}

theorem Validated.eq (h : r.Validated record row attempt) : r.validate record row = attempt := by
  unfold validate
  cases h with
  | unstored stored => rw [stored]
  | null stored nulls => simp only [stored, nulls]
  | unasked stored nulls asked =>
    simp only [stored, nulls, asked, Bool.not_false, if_true]
  | @answered _ answer stored nulls asked answers =>
    simp only [stored, nulls, asked, answers, Bool.not_true, Bool.false_eq_true, if_false]
    cases answer <;> rfl

theorem validated (r : Rules) (record : Nat) (row : Row) :
    r.Validated record row (r.validate record row) := by
  rcases hstored : r.storeValues record 0 row.values with ⟨e | _, values⟩
  · have h := Validated.unstored hstored
    exact h.eq ▸ h
  cases hnulls : r.nullViolation? { row with values := values } with
  | some i =>
    have h := Validated.null hstored hnulls
    exact h.eq ▸ h
  | none =>
    cases hasked : r.checkConstraints with
    | false =>
      have h := Validated.unasked hstored hnulls hasked
      exact h.eq ▸ h
    | true =>
      have h := Validated.answered hstored hnulls hasked rfl
      exact h.eq ▸ h

/-- The row is left with its values in their stored forms. -/
theorem Validated.row_eq (h : r.Validated record row attempt) :
    attempt.row = { row with values := (r.storeValues record 0 row.values).2 } := by
  cases h with
  | unstored stored => rw [stored]
  | null stored => rw [stored]
  | unasked stored => rw [stored]
  | answered stored => rw [stored]

end Validated

/-- Checking keeps the shape of a row. -/
theorem shaped_validate {n record : Nat} {row : Row} (h : row.Shaped n) :
    (r.validate record row).row.Shaped n := by
  rw [(r.validated record row).row_eq]
  exact ⟨(r.length_storeValues record 0 row.values).trans h.values, h.nulls⟩

/-- What becomes of a record by itself. -/
def judge (record : Record) : Attempt := r.attempt record (Row.blank r.schema.width)

/-- **What becomes of a record does not depend on the row that it is
converted into**, whatever records have left there. -/
theorem attempt_of_shaped (record : Record) {row : Row} (h : row.Shaped r.schema.width) :
    (r.attempt record row).Alike r.schema.width (r.judge record) := by
  have hbuild := Row.build_alike r.schema r.catalog record h (Row.shaped_blank r.schema.width)
  unfold judge attempt
  generalize row.build r.schema r.catalog record = built at hbuild
  generalize (Row.blank r.schema.width).build r.schema r.catalog record = built' at hbuild
  obtain ⟨outcome, row, requests⟩ := built
  obtain ⟨outcome', row', requests'⟩ := built'
  obtain ⟨rfl, rfl, hrow, hn, hn'⟩ := hbuild
  cases outcome with
  | error e => exact ⟨rfl, rfl, nofun, hn, hn'⟩
  | ok _ =>
    obtain rfl : row = row' := hrow rfl
    exact ⟨rfl, rfl, fun _ => rfl, r.shaped_validate hn, r.shaped_validate hn⟩

/-- Whether a record is accepted. -/
def accepts (record : Record) : Bool :=
  match (r.judge record).outcome with
  | .ok () => true
  | .error _ => false

theorem outcome_of_accepts {record : Record} (h : r.accepts record = true) :
    (r.judge record).outcome = .ok () := by
  unfold accepts at h
  split at h
  · assumption
  · cases h

theorem outcome_of_not_accepts {record : Record} (h : r.accepts record = false) :
    ∃ e, (r.judge record).outcome = .error e := by
  unfold accepts at h
  split at h
  · cases h
  · next e he => exact ⟨e, he⟩

/-- The rows of the records that are accepted, each with the bytes of its
record. -/
def acceptedRows (records : List Record) : List (Row × Bytes) :=
  (records.filter r.accepts).map fun x => ((r.judge x).row, x.raw)

/-- The bytes of the records that are rejected. -/
def rejectedBytes (records : List Record) : List Bytes :=
  (records.filter fun x => !r.accepts x).map Record.raw

theorem acceptedRows_concat (xs : List Record) (x : Record) :
    r.acceptedRows (xs ++ [x])
      = r.acceptedRows xs ++ if r.accepts x then [((r.judge x).row, x.raw)] else [] := by
  unfold acceptedRows
  rw [List.filter_append, List.map_append]
  cases h : r.accepts x <;> simp [h]

theorem rejectedBytes_concat (xs : List Record) (x : Record) :
    r.rejectedBytes (xs ++ [x])
      = r.rejectedBytes xs ++ if r.accepts x then [] else [x.raw] := by
  unfold rejectedBytes
  rw [List.filter_append, List.map_append]
  cases h : r.accepts x <;> simp [h]

/-- More records, no fewer of them rejected. -/
theorem length_rejectedBytes_append (xs ys : List Record) :
    (r.rejectedBytes xs).length ≤ (r.rejectedBytes (xs ++ ys)).length := by
  unfold rejectedBytes
  rw [List.filter_append, List.map_append, List.length_append]
  exact Nat.le_add_right _ _

end Rules

/-! ## Catalogs that only refuse -/

/-- A catalog that asks for nothing and fails only by calling a value or
a row unacceptable. -/
structure Catalog.Mild (c : Catalog) : Prop where
  read_requests : ∀ column bs, (c.read column bs).requests = []
  read_error : ∀ column bs e, (c.read column bs).answer = .error e → ∃ text, e = .invalid text
  check_requests : ∀ schema row, (c.check schema row).requests = []
  check_error : ∀ schema row e, (c.check schema row).answer = .error e → ∃ text, e = .invalid text

theorem Catalog.mild_plain : Catalog.plain.Mild where
  read_requests _ _ := rfl
  read_error column bs e h := by
    change column.type.read bs = .error e at h
    unfold ColumnType.read at h
    split at h
    · cases h
    · split at h
      · cases h
      · exact ⟨_, (Except.error.inj h).symm⟩
  check_requests _ _ := rfl
  check_error _ _ _ h := nomatch h

/-- An attempt that asks for nothing and, if it fails, rejects its
record. -/
structure Attempt.Mild (a : Attempt) : Prop where
  requests : a.requests = []
  rejected : ∀ e, a.outcome = .error e → ∃ rejection, e = .rejected rejection

section Mild

variable {catalog : Catalog} (h : catalog.Mild)

include h

theorem Row.putField_mild (row : Row) (record i : Nat) (column : Column) (f : Field) :
    (row.putField catalog record i column f).Mild := by
  unfold putField
  cases f.content? with
  | none => exact ⟨rfl, nofun⟩
  | some bs =>
    dsimp only
    split
    · exact ⟨rfl, nofun⟩
    · cases hanswer : (catalog.read column bs).answer with
      | ok v => exact ⟨h.read_requests column bs, nofun⟩
      | error e =>
        obtain ⟨text, rfl⟩ := h.read_error column bs e hanswer
        refine ⟨h.read_requests column bs, fun e he => ⟨_, (Except.error.inj he).symm⟩⟩

theorem Row.putNext_mild (row : Row) (record i : Nat) (column : Column) (fields : List Field) :
    (row.putNext catalog record i column fields).Mild := by
  cases fields with
  | cons f fields => exact row.putField_mild h record i column f
  | nil =>
    unfold putNext putDefault
    cases column.default with
    | none => exact ⟨rfl, fun e he => ⟨_, (Except.error.inj he).symm⟩⟩
    | some v => exact ⟨rfl, nofun⟩

theorem Row.putFields_mild (row : Row) (record i : Nat) (columns : List Column)
    (fields : List Field) : (row.putFields catalog record i columns fields []).Mild := by
  induction columns generalizing row i fields with
  | nil => exact ⟨rfl, nofun⟩
  | cons column columns ih =>
    have hnext := row.putNext_mild h record i column fields
    rw [putFields_cons]
    generalize row.putNext catalog record i column fields = attempt at hnext
    obtain ⟨outcome, row, requests⟩ := attempt
    obtain ⟨rfl, hrejected⟩ := hnext
    cases outcome with
    | error e => exact ⟨rfl, hrejected⟩
    | ok _ => exact ih row (i + 1) fields.tail

end Mild

namespace Rules

variable (r : Rules)

theorem storeValues_rejected {record i : Nat} {values : List Value} {e : RowError}
    (h : (r.storeValues record i values).1 = .error e) : ∃ rejection, e = .rejected rejection := by
  induction values generalizing i with
  | nil => cases h
  | cons v values ih =>
    cases v with
    | text bs =>
      rw [storeValues] at h
      cases hstore : r.storeText record i bs with
      | error e' =>
        rw [hstore] at h
        cases h
        unfold storeText at hstore
        split at hstore
        · cases hstore
        · dsimp only at hstore
          split at hstore
          · cases hstore
          · exact ⟨_, (Except.error.inj hstore).symm⟩
      | ok stored =>
        rw [hstore] at h
        exact ih h
    | _ => exact ih (i := i + 1) h

theorem validate_mild (h : r.catalog.Mild) (record : Nat) (row : Row) :
    (r.validate record row).Mild := by
  have hvalidated := r.validated record row
  generalize r.validate record row = checked at hvalidated ⊢
  cases hvalidated with
  | unstored stored =>
    exact ⟨rfl, fun e he => r.storeValues_rejected ((congrArg Prod.fst stored).trans he)⟩
  | null => exact ⟨rfl, fun e he => ⟨_, (Except.error.inj he).symm⟩⟩
  | unasked => exact ⟨rfl, nofun⟩
  | @answered _ answer _ _ _ answers =>
    refine ⟨h.check_requests _ _, fun e he => ?_⟩
    cases answer with
    | ok _ => cases he
    | error e' =>
      obtain ⟨text, rfl⟩ := h.check_error _ _ _ answers
      exact ⟨_, (Except.error.inj he).symm⟩

/-- **A catalog that only refuses neither stops a run nor asks for it.** -/
theorem attempt_of_mild (h : r.catalog.Mild) (record : Record) (row : Row) :
    (r.attempt record row).Mild := by
  have hbuild : (row.build r.schema r.catalog record).Mild := by
    unfold Row.build
    cases record.shortfall with
    | some s => exact ⟨rfl, fun e he => ⟨_, (Except.error.inj he).symm⟩⟩
    | none =>
      dsimp only
      split
      · exact ⟨rfl, fun e he => ⟨_, (Except.error.inj he).symm⟩⟩
      · exact Row.putFields_mild h _ _ _ _ _
  unfold attempt
  generalize row.build r.schema r.catalog record = built at hbuild
  obtain ⟨outcome, row, requests⟩ := built
  obtain ⟨rfl, hrejected⟩ := hbuild
  cases outcome with
  | error e => exact ⟨rfl, hrejected⟩
  | ok _ =>
    have hchecked := r.validate_mild h record.number row
    exact ⟨hchecked.requests, hchecked.rejected⟩

end Rules
end Intake
