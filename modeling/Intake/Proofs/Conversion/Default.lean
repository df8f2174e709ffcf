import Intake.Proofs.Conversion.Reuse
import Intake.Proofs.Conversion.WellFormed
/-!
# What a record that ends early is accepted as

A record may have fewer fields than its table has columns. The columns
behind its last field take their defaults, and the row is checked like any
other. The check does not know where a value comes from: character data of
a Latin-1 load becomes UTF-8, and so does a default, which is UTF-8
already. What is stored is therefore the default as it would be read from
the input (`Value.stored`). That is the default itself in the other
encodings, for everything but text, and for text that is ASCII
(`Value.Kept`), and no other text (`Rules.judge_default`).
-/

namespace Intake

/-! ## Values -/

namespace Value

/-- A value as it is stored: character data is taken for that of the
input's encoding. -/
def stored (encoding : Encoding) : Value → Value
  | .text bs => .text (if encoding.matchesStorage then bs else Utf8.ofLatin1 bs)
  | v => v

/-- A value that storing leaves as it is. -/
def Kept (encoding : Encoding) (v : Value) : Prop :=
  encoding = .latin1 → ∀ bs, v = .text bs → Utf8.isAscii bs = true

theorem stored_eq_self_iff (encoding : Encoding) (v : Value) :
    v.stored encoding = v ↔ v.Kept encoding := by
  cases v with
  | text bs =>
    cases encoding with
    | latin1 =>
      show Value.text (Utf8.ofLatin1 bs) = .text bs ↔ _
      rw [Value.text.injEq, Utf8.ofLatin1_eq_self_iff]
      constructor
      · rintro hascii - bs' heq
        cases heq
        exact hascii
      · intro hkept
        exact hkept rfl bs rfl
    | _ => exact iff_of_true rfl nofun
  | _ => exact iff_of_true rfl fun _ _ => nofun

theorem isNull_stored (encoding : Encoding) (v : Value) :
    (v.stored encoding).isNull = v.isNull := by
  cases v <;> rfl

end Value

/-! ## Building -/

namespace Row

variable {catalog : Catalog} {record i k : Nat} {row : Row} {columns : List Column}
  {column : Column} {fields : List Field} {requests : List Interrupt}

/-- A column of a row that holds a value, with the flag for it. -/
structure Holds (row : Row) (i : Nat) (v : Value) : Prop where
  value : row.values[i]? = some v
  flag : row.nulls[i]? = some v.isNull

theorem Shaped.holds_set {n : Nat} (h : row.Shaped n) (hi : i < n) (v : Value) :
    (row.set i v).Holds i v :=
  ⟨List.getElem?_set_self (h.values ▸ hi), List.getElem?_set_self (h.nulls ▸ hi)⟩

theorem Holds.store {v : Value} (h : row.Holds k v) (hki : k ≠ i) (value : Option Value) :
    (row.store i value).Holds k v := by
  cases value with
  | none => exact h
  | some v' =>
    exact ⟨(List.getElem?_set_ne hki.symm).trans h.value,
      (List.getElem?_set_ne hki.symm).trans h.flag⟩

/-- What stands before a column stays there. -/
theorem Holds.putFields {v : Value} (h : row.Holds k v) (hk : k < i) :
    (row.putFields catalog record i columns fields requests).row.Holds k v := by
  induction columns generalizing row i fields requests with
  | nil => exact h
  | cons column columns ih =>
    obtain ⟨outcome, value, asked, -, heq⟩ := putNext_eq catalog record i column fields
    rw [putFields_cons, heq]
    have hstored := h.store (Nat.ne_of_lt hk) value
    cases outcome with
    | error e => exact hstored
    | ok _ => exact ih hstored (Nat.lt_succ_of_lt hk)

/-- **Behind the last field the columns hold their defaults**, if nothing
has gone wrong. -/
theorem putFields_default {n : Nat} (hn : i + columns.length = n) (hrow : row.Shaped n)
    (hok : (row.putFields catalog record i columns fields requests).outcome = .ok ())
    (hk : fields.length ≤ k) (hcolumn : columns[k]? = some column) :
    ∃ v, column.default = some v ∧
      (row.putFields catalog record i columns fields requests).row.Holds (i + k) v := by
  induction columns generalizing row i k fields requests with
  | nil => cases hcolumn
  | cons first columns ih =>
    rw [List.length_cons] at hn
    rw [putFields_cons] at hok ⊢
    cases fields with
    | nil =>
      rw [putNext, putDefault] at hok ⊢
      cases hdefault : first.default with
      | none =>
        rw [hdefault] at hok
        cases hok
      | some v =>
        rw [hdefault] at hok
        cases k with
        | zero =>
          cases hcolumn
          exact ⟨v, hdefault, (hrow.holds_set (by omega) v).putFields (Nat.lt_succ_self i)⟩
        | succ k =>
          rw [← Nat.add_assoc, Nat.add_right_comm]
          exact ih (by omega) (hrow.set i v) hok (Nat.zero_le k) hcolumn
    | cons f fields =>
      obtain ⟨outcome, value, asked, -, heq⟩ :=
        putNext_eq catalog record i first (f :: fields)
      rw [heq] at hok ⊢
      cases outcome with
      | error e => cases hok
      | ok _ =>
        cases k with
        | zero => cases hk
        | succ k =>
          rw [← Nat.add_assoc, Nat.add_right_comm]
          exact ih (by omega) (hrow.store i value) hok (Nat.le_of_succ_le_succ hk) hcolumn

theorem build_default {schema : Schema} {x : Record} (h : row.Even)
    (hok : (row.build schema catalog x).outcome = .ok ())
    (hk : x.fields.length ≤ k) (hcolumn : schema.columns[k]? = some column) :
    ∃ v, column.default = some v ∧ (row.build schema catalog x).row.Holds k v := by
  obtain ⟨e, heq⟩ | heq := build_cases schema catalog x
  · rw [heq] at hok
    cases hok
  · rw [heq] at hok ⊢
    have hput := putFields_default (Nat.zero_add schema.columns.length)
      (h.shaped_fitted schema.width) hok hk hcolumn
    rw [Nat.zero_add] at hput
    exact hput

end Row

/-! ## Checking -/

namespace Rules

variable {r : Rules} (hknown : r.transcoder = .known)

include hknown

/-- What the known transcoder makes of character data. -/
theorem storeText_known {record i : Nat} {bs stored : Bytes}
    (h : r.storeText record i bs = .ok stored) :
    (Value.text bs).stored r.encoding = .text stored := by
  unfold storeText at h
  split at h
  · next hascii =>
    cases h
    refine (Value.stored_eq_self_iff r.encoding (.text bs)).mpr fun _ bs' heq => ?_
    cases heq
    exact hascii
  · dsimp only at h
    split at h
    · next hconverted =>
      cases h
      rw [hknown] at hconverted
      cases hencoding : r.encoding with
      | latin1 =>
        rw [hencoding] at hconverted
        cases hconverted
        rfl
      | _ =>
        rw [hencoding] at hconverted
        exact congrArg Value.text (Transcoder.eq_of_checked hconverted).symm
    · cases h

/-- Values that have passed the check are as they are stored. -/
theorem storeValues_known {record i : Nat} {values : List Value}
    (hok : (r.storeValues record i values).1 = .ok ()) :
    (r.storeValues record i values).2 = values.map (Value.stored r.encoding) := by
  induction values generalizing i with
  | nil => rfl
  | cons v values ih =>
    cases v with
    | text bs =>
      rw [storeValues] at hok ⊢
      cases hstored : r.storeText record i bs with
      | error e =>
        rw [hstored] at hok
        cases hok
      | ok stored =>
        rw [hstored] at hok
        rw [List.map_cons, storeText_known hknown hstored]
        exact congrArg (Value.text stored :: ·) (ih hok)
    | _ => exact congrArg (_ :: ·) (ih (i := i + 1) hok)

/-- **Behind the last field of an accepted record stand the defaults**, as
they are stored. -/
theorem judge_default {x : Record} (haccepts : r.accepts x = true) {k : Nat} {column : Column}
    (hk : x.fields.length ≤ k) (hcolumn : r.schema.columns[k]? = some column) :
    ∃ v, column.default = some v ∧ (r.judge x).row.Holds k (v.stored r.encoding) := by
  have hok := r.outcome_of_accepts haccepts
  have heven : (Row.blank r.schema.width).Even := (Row.shaped_blank r.schema.width).even
  have hbuild : ((Row.blank r.schema.width).build r.schema r.catalog x).outcome = .ok () →
      ∃ v, column.default = some v ∧
        ((Row.blank r.schema.width).build r.schema r.catalog x).row.Holds k v :=
    fun hok => Row.build_default heven hok hk hcolumn
  unfold judge attempt at hok ⊢
  generalize (Row.blank r.schema.width).build r.schema r.catalog x = built at hok hbuild ⊢
  obtain ⟨e | _, row, requests⟩ := built
  · cases hok
  · obtain ⟨v, hdefault, hvalue, hflag⟩ := hbuild rfl
    obtain ⟨hstored, heq, -⟩ := validate_ok hok
    refine ⟨v, hdefault, ?_, ?_⟩
    · show (r.validate x.number row).row.values[k]? = _
      rw [heq, storeValues_known hknown hstored, List.getElem?_map, hvalue]
      rfl
    · show (r.validate x.number row).row.nulls[k]? = _
      rw [heq, Value.isNull_stored]
      exact hflag

end Rules
end Intake
