import Intake.Record.Delimited
/-!
# Dividing a record ends

A record is divided into fields in rounds, and each of them takes what is
at the front of the rest. `Splits` are the divisions that have a last
round; of one that has none there is nothing to be known but that.

Whether there is a last round depends on the delimiter alone
(`exists_splits_iff`). One that has bytes is gone when it has been found,
so every round leaves fewer bytes. An empty one is at the front of any
bytes and still there in the next round: the field is closed again and
again and nothing is ever read (`not_splits_of_empty`). No dialect that is
checked has such a delimiter; one that is put together by hand may.
-/

namespace Intake

/-- From here on, the rounds of dividing these bytes end with these
fields. -/
inductive Splits (d : Dialect) : Splitting → Bytes → List Field → Prop
  | done (s : Splitting) : Splits d s [] (s.fields d)
  | round {s : Splitting} {b : UInt8} {rest : Bytes} {fields : List Field} :
    Splits d (s.round d b rest).1 (s.round d b rest).2 fields → Splits d s (b :: rest) fields

section Ends

variable {d : Dialect}

theorem splitLoop_nil (s : Splitting) : splitLoop d s [] = s.fields d := by
  rw [splitLoop, repeatM_eq_of_monadTail]
  rfl

theorem splitLoop_cons (s : Splitting) (b : UInt8) (rest : Bytes) :
    splitLoop d s (b :: rest) = splitLoop d (s.round d b rest).1 (s.round d b rest).2 := by
  rw [splitLoop, repeatM_eq_of_monadTail]
  rfl

theorem splitFrom_cons (h : d.delimiter ≠ []) (s : Splitting) (b : UInt8) (rest : Bytes) :
    splitFrom d h s (b :: rest) = splitFrom d h (s.round d b rest).1 (s.round d b rest).2 := by
  rw [splitFrom]

/-- Rounds that end give what the loop over them returns. -/
theorem Splits.splitLoop_eq {s : Splitting} {bs : Bytes} {fields : List Field}
    (h : Splits d s bs fields) : splitLoop d s bs = fields := by
  induction h with
  | done s => exact splitLoop_nil s
  | round _ ih => rw [splitLoop_cons, ih]

/-- Where every round leaves fewer bytes there is a last one. -/
theorem splits_splitFrom (h : d.delimiter ≠ []) (s : Splitting) (bs : Bytes) :
    Splits d s bs (splitFrom d h s bs) := by
  induction hk : bs.length using Nat.strongRecOn generalizing s bs with
  | ind k ih =>
    cases bs with
    | nil =>
      rw [splitFrom]
      exact .done s
    | cons b rest =>
      rw [splitFrom_cons h]
      exact .round (ih _ (hk ▸ s.length_round_lt h b rest) _ _ rfl)

theorem split_of_delimiter (h : d.delimiter ≠ []) (forced : List Bool) (bs : Bytes) :
    split d forced bs = splitFrom d h { forced := forced } bs := by
  rw [split, dif_neg h]

/-- **With a delimiter, dividing ends**, and the fields are those of a
record. -/
theorem splits_split (h : d.delimiter ≠ []) (forced : List Bool) (bs : Bytes) :
    Splits d { forced := forced } bs (split d forced bs) := by
  rw [split_of_delimiter h]
  exact splits_splitFrom h _ bs

/-- The one loop is what divides a record, whatever the delimiter. -/
theorem split_eq_splitLoop (d : Dialect) (forced : List Bool) (bs : Bytes) :
    split d forced bs = splitLoop d { forced := forced } bs := by
  by_cases h : d.delimiter = []
  · rw [split, dif_pos h]
  · exact (splits_split h forced bs).splitLoop_eq.symm

/-- An empty delimiter is found outside quotes before anything else is,
and all bytes are left. -/
theorem Splitting.round_of_empty (h : d.delimiter = []) {s : Splitting} (hs : s.quoted = false)
    (b : UInt8) (rest : Bytes) : s.round d b rest = (s.close d, b :: rest) := by
  simp [Splitting.round, hs, h]

/-- **With an empty delimiter no round outside quotes is the last one**, as
long as there are bytes: closing a field leaves the next one outside quotes
before the same bytes. -/
theorem not_splits_of_empty (h : d.delimiter = []) {s : Splitting} (hs : s.quoted = false)
    {bs : Bytes} (hbs : bs ≠ []) (fields : List Field) : ¬ Splits d s bs fields := by
  intro hsplits
  induction hsplits with
  | done s => exact hbs rfl
  | @round s b rest fields _ ih =>
    rw [Splitting.round_of_empty h hs] at ih
    exact ih rfl (List.cons_ne_nil b rest)

/-- **Dividing a record ends if there is a delimiter, or nothing to
divide**, and in no other case. -/
theorem exists_splits_iff (d : Dialect) (forced : List Bool) (bs : Bytes) :
    (∃ fields, Splits d { forced := forced } bs fields) ↔ d.delimiter ≠ [] ∨ bs = [] := by
  constructor
  · rintro ⟨fields, hsplits⟩
    by_cases hdelimiter : d.delimiter = []
    · by_cases hbs : bs = []
      · exact .inr hbs
      · exact absurd hsplits (not_splits_of_empty hdelimiter rfl hbs fields)
    · exact .inl hdelimiter
  · rintro (hdelimiter | rfl)
    · exact ⟨_, splits_split hdelimiter forced bs⟩
    · exact ⟨_, .done _⟩

end Ends
end Intake
