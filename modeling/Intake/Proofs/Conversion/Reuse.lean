import Intake.Proofs.Conversion.Attempt
import Intake.Run.Loader
/-!
# Nothing is left over from the record before

The row that a record is converted into holds what the record before it
left there: all of its values, the first few where a field of it was
refused, some of them in another encoding already. It may even be of
another width, since a record with too many fields is refused before the
row is looked at. None of this shows in what becomes of the next record
(`Rules.attempt_indifferent`), as long as the row has a flag for each
value (`Row.Even`), and every attempt leaves such a row behind.

Building decides by the record alone whether it gets as far as the row
(`Row.build_cases`). Where it does, a row of another width is replaced by
a blank one, so all that is left to compare are rows of the width of the
schema, of which every column is overwritten. A whole run is the same from
any such row (`Loader.records_indifferent`).
-/

namespace Intake

/-- A row with a flag for each value. -/
def Row.Even (row : Row) : Prop := row.nulls.length = row.values.length

instance (row : Row) : Decidable row.Even :=
  inferInstanceAs (Decidable (row.nulls.length = row.values.length))

/-- The row that the columns are stored in: a row of another width is made
blank first. -/
def Row.fitted (row : Row) (n : Nat) : Row := if row.width = n then row else blank n

/-- Two attempts that differ at most in the row that a failure leaves. -/
structure Attempt.Level (a b : Attempt) : Prop where
  outcome : a.outcome = b.outcome
  requests : a.requests = b.requests
  row : a.outcome = .ok () → a.row = b.row
  even : a.row.Even
  even' : b.row.Even

namespace Row

variable {row row' : Row} {n : Nat}

theorem Shaped.even (h : row.Shaped n) : row.Even := h.nulls.trans h.values.symm

theorem Even.shaped_fitted (h : row.Even) (n : Nat) : (row.fitted n).Shaped n := by
  unfold fitted
  split
  · next hwidth => exact ⟨hwidth, h.trans hwidth⟩
  · exact shaped_blank n

/-- Whether a record gets as far as the row is decided without it. -/
theorem build_cases (schema : Schema) (catalog : Catalog) (record : Record) :
    (∃ e, ∀ row : Row, row.build schema catalog record = { outcome := .error e, row := row }) ∨
      ∀ row : Row, row.build schema catalog record
        = (row.fitted schema.width).putFields catalog record.number 0 schema.columns
            record.fields [] := by
  cases hshort : record.shortfall with
  | some s =>
    refine .inl ⟨.ofParse record.number none s.message, fun row => ?_⟩
    rw [build, hshort]
  | none =>
    by_cases hmany : schema.width < record.fields.length
    · refine .inl ⟨.ofParse record.number (some (schema.width + 1))
        "extra data after last expected column", fun row => ?_⟩
      simp only [build, hshort, hmany, if_true]
    · refine .inr fun row => ?_
      simp only [build, hshort, hmany, if_false]
      rfl

theorem level_build (schema : Schema) (catalog : Catalog) (record : Record) (h : row.Even)
    (h' : row'.Even) :
    (row.build schema catalog record).Level (row'.build schema catalog record) := by
  obtain ⟨e, heq⟩ | heq := build_cases schema catalog record
  · rw [heq, heq]
    exact ⟨rfl, rfl, nofun, h, h'⟩
  · have halike := putFields_alike catalog record.number (Nat.zero_add schema.columns.length)
      (h.shaped_fitted schema.width) (h'.shaped_fitted schema.width) (agree_zero _ _)
      record.fields []
    rw [heq, heq]
    exact ⟨halike.outcome, halike.requests, halike.row, halike.shaped.even, halike.shaped'.even⟩

end Row

namespace Rules

variable (r : Rules) {row row' : Row}

theorem even_validate (record : Nat) (h : row.Even) : (r.validate record row).row.Even :=
  (r.shaped_validate (n := row.values.length) ⟨rfl, h⟩).even

theorem level_attempt (record : Record) (h : row.Even) (h' : row'.Even) :
    (r.attempt record row).Level (r.attempt record row') := by
  have hbuild := Row.level_build r.schema r.catalog record h h'
  unfold attempt
  generalize row.build r.schema r.catalog record = built at hbuild
  generalize row'.build r.schema r.catalog record = built' at hbuild
  obtain ⟨outcome, left, requests⟩ := built
  obtain ⟨outcome', left', requests'⟩ := built'
  obtain ⟨rfl, rfl, hrow, heven, heven'⟩ := hbuild
  cases outcome with
  | error e => exact ⟨rfl, rfl, nofun, heven, heven'⟩
  | ok _ =>
    obtain rfl : left = left' := hrow rfl
    exact ⟨rfl, rfl, fun _ => rfl, r.even_validate record.number heven,
      r.even_validate record.number heven⟩

/-- **What a record comes to does not depend on what the row held
before**: it fails in the same way, or is accepted with the same values
and flags, and asks for the same. -/
theorem attempt_indifferent (record : Record) (h : row.Even) (h' : row'.Even) :
    (r.attempt record row).requests = (r.attempt record row').requests ∧
      ((∃ e, (r.attempt record row).outcome = .error e ∧
          (r.attempt record row').outcome = .error e) ∨
        (r.attempt record row).outcome = .ok () ∧ (r.attempt record row').outcome = .ok () ∧
          (r.attempt record row).row = (r.attempt record row').row) := by
  have hlevel := r.level_attempt record h h'
  refine ⟨hlevel.requests, ?_⟩
  cases houtcome : (r.attempt record row).outcome with
  | error e => exact .inl ⟨e, rfl, hlevel.outcome.symm.trans houtcome⟩
  | ok _ => exact .inr ⟨rfl, hlevel.outcome.symm.trans houtcome, hlevel.row houtcome⟩

/-- A text and a number, in Latin-1. -/
def pair : Rules where
  schema := ⟨[{ name := "a", type := .text }, { name := "b", type := .int32 }]⟩
  catalog := .plain
  encoding := .latin1

/-- The row that a record with a bad number leaves has that record's text
in it; it serves as well as a row without columns. -/
theorem attempt_indifferent_pair :
    let left := (pair.attempt ⟨1, [0xE9, 0x2C, 0x78, 0x0A], [⟨[0xE9], false⟩, ⟨[0x78], false⟩],
      none⟩ (.blank 2)).row
    let x : Record := ⟨2, [0x2C, 0x31, 0x0A], [⟨[], true⟩, ⟨[0x31], false⟩], none⟩
    left = ⟨[.text [0xE9], .null], [false, true]⟩ ∧ left.Even ∧ Row.Even ⟨[], []⟩ ∧
      (pair.attempt x left).outcome.toOption = some () ∧
      (pair.attempt x left).row = ⟨[.null, .int32 1], [true, false]⟩ ∧
      (pair.attempt x left).row = (pair.attempt x ⟨[], []⟩).row := by
  intro left x
  have heven : left.Even := by decide +kernel
  have hnone : Row.Even ⟨[], []⟩ := rfl
  have hok : (pair.attempt x left).outcome.toOption = some () := by decide +kernel
  refine ⟨by decide +kernel, heven, hnone, hok, by decide +kernel, ?_⟩
  obtain ⟨-, ⟨e, he, -⟩ | ⟨-, -, hrow⟩⟩ := pair.attempt_indifferent x heven hnone
  · rw [he] at hok
    cases hok
  · exact hrow

end Rules

namespace Loader

variable {σ : Type}

/-- **A run is the same from any row.** -/
theorem records_indifferent (w : Writer σ) (rules : Rules) (fuel : Nat) (left : Option Nat)
    (reader : RecordReader) {row row' : Row} (h : row.Even) (h' : row'.Even) (st : State σ) :
    records w rules fuel left reader row st = records w rules fuel left reader row' st := by
  induction fuel generalizing left reader row row' st with
  | zero => rfl
  | succ fuel ih =>
    rw [records, records]
    split
    · rfl
    cases st.site.token.pending with
    | some kind => rfl
    | none =>
      obtain ⟨e | _ | x, reader'⟩ := reader.next
      · rfl
      · rfl
      · dsimp only
        have hlevel := rules.level_attempt x h h'
        generalize rules.attempt x row = attempt at hlevel
        generalize rules.attempt x row' = attempt' at hlevel
        obtain ⟨outcome, row, requests⟩ := attempt
        obtain ⟨outcome', row', requests'⟩ := attempt'
        obtain ⟨rfl, rfl, hrow, heven, heven'⟩ := hlevel
        cases outcome with
        | ok _ =>
          obtain rfl : row = row' := hrow rfl
          rfl
        | error e =>
          cases e with
          | fatal e => rfl
          | rejected rejection =>
            dsimp only [Rejects.absorb]
            obtain ⟨e | _, rejects, site⟩ := st.rejects.reject x.number x.raw rejection
              (st.site.request requests)
            · rfl
            · exact ih (left.map (· - 1)) reader' heven heven' _

end Loader
end Intake
