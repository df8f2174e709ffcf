import Intake.Proofs.Conversion.Attempt
/-!
# The number of a record

The number of a record is there for what is said about a record that
fails. A record that is accepted is accepted under any number, as the same
row (`Rules.judge_number`).
-/

namespace Intake
namespace Row

variable {row : Row} {catalog : Catalog} {record i : Nat}

theorem putNext_number {column : Column} {fields : List Field}
    (h : (row.putNext catalog record i column fields).outcome = .ok ()) (other : Nat) :
    row.putNext catalog other i column fields = row.putNext catalog record i column fields := by
  cases fields with
  | cons f fields =>
    simp only [putNext, putField] at h ⊢
    cases hcontent : f.content? with
    | none => rfl
    | some bs =>
      rw [hcontent] at h
      dsimp only at h ⊢
      by_cases hcharacter : column.type.isCharacter
      · rw [if_pos hcharacter, if_pos hcharacter]
      · rw [if_neg hcharacter] at h
        rw [if_neg hcharacter, if_neg hcharacter]
        cases hanswer : (catalog.read column bs).answer with
        | ok v => rfl
        | error e =>
          rw [hanswer] at h
          cases h
  | nil =>
    simp only [putNext, putDefault] at h ⊢
    cases hdefault : column.default with
    | some v => rfl
    | none =>
      rw [hdefault] at h
      cases h

theorem putFields_number {columns : List Column} {fields : List Field} {requests : List Interrupt}
    (h : (row.putFields catalog record i columns fields requests).outcome = .ok ()) (other : Nat) :
    row.putFields catalog other i columns fields requests
      = row.putFields catalog record i columns fields requests := by
  induction columns generalizing row i fields requests with
  | nil => rfl
  | cons column columns ih =>
    rw [putFields_cons] at h
    rcases hnext : row.putNext catalog record i column fields with ⟨_ | _, row₁, asked⟩
    · rw [hnext] at h
      cases h
    · have hsame := putNext_number (congrArg Attempt.outcome hnext) other
      rw [hnext] at h
      rw [putFields_cons, putFields_cons, hsame, hnext]
      exact ih h

theorem build_number {schema : Schema} {x : Record}
    (h : (row.build schema catalog x).outcome = .ok ()) (other : Nat) :
    row.build schema catalog { x with number := other } = row.build schema catalog x := by
  unfold build at h ⊢
  cases hshortfall : x.shortfall with
  | some s =>
    rw [hshortfall] at h
    cases h
  | none =>
    rw [hshortfall] at h
    dsimp only at h ⊢
    by_cases hwide : schema.width < x.fields.length
    · rw [if_pos hwide] at h
      cases h
    · rw [if_neg hwide] at h
      rw [if_neg hwide, if_neg hwide]
      exact putFields_number h other

end Row

namespace Rules

variable (r : Rules) {record i : Nat}

theorem storeText_number {bs stored : Bytes} (h : r.storeText record i bs = .ok stored)
    (other : Nat) : r.storeText other i bs = .ok stored := by
  unfold storeText at h ⊢
  by_cases hascii : Utf8.isAscii bs = true
  · rw [if_pos hascii] at h ⊢
    exact h
  · rw [if_neg hascii] at h ⊢
    dsimp only at h ⊢
    split at h
    · exact h
    · cases h

theorem storeValues_number {values : List Value} (h : (r.storeValues record i values).1 = .ok ())
    (other : Nat) : r.storeValues other i values = r.storeValues record i values := by
  induction values generalizing i with
  | nil => rfl
  | cons v values ih =>
    cases v with
    | text bs =>
      simp only [storeValues] at h ⊢
      rcases hstored : r.storeText record i bs with e | stored
      · rw [hstored] at h
        cases h
      · rw [hstored] at h
        rw [r.storeText_number hstored other]
        dsimp only at h ⊢
        rw [ih h]
    | _ =>
      simp only [storeValues] at h ⊢
      rw [ih h]

theorem validate_number {row : Row} (h : (r.validate record row).outcome = .ok ())
    (other : Nat) : r.validate other row = r.validate record row := by
  have hvalidated := r.validated record row
  generalize r.validate record row = checked at h hvalidated ⊢
  cases hvalidated with
  | unstored => cases h
  | null => cases h
  | unasked stored nulls asked =>
    have hstored := r.storeValues_number (congrArg Prod.fst stored) other
    exact (Validated.unasked (hstored.trans stored) nulls asked).eq
  | @answered _ answer stored nulls asked answers =>
    have hstored := r.storeValues_number (congrArg Prod.fst stored) other
    cases answer with
    | error e => cases h
    | ok _ => exact (Validated.answered (hstored.trans stored) nulls asked answers).eq

/-- **A record that is accepted is accepted under any number**, as the
same row and with the same requests. -/
theorem judge_number {x : Record} (h : (r.judge x).outcome = .ok ()) (other : Nat) :
    r.judge { x with number := other } = r.judge x := by
  unfold judge attempt at h ⊢
  have hbuild : ((Row.blank r.schema.width).build r.schema r.catalog x).outcome = .ok () := by
    rcases hbuilt : (Row.blank r.schema.width).build r.schema r.catalog x with
      ⟨_ | _, row, requests⟩
    · rw [hbuilt] at h
      cases h
    · rfl
  rw [Row.build_number hbuild other]
  rcases hbuilt : (Row.blank r.schema.width).build r.schema r.catalog x with ⟨_ | _, row, requests⟩
  · rfl
  · rw [hbuilt] at h
    dsimp only at h ⊢
    rw [r.validate_number h other]

end Rules
end Intake
