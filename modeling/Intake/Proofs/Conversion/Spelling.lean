import Intake.Conversion.Catalog
import Intake.Proofs.Numeral.Integer
import Intake.Proofs.Text.Pieces
import Intake.Proofs.Text.Utf8
/-!
# Values and their text

What a file has for a whole number or a truth value is read as that value
again (`Value.Spelled.read_bytes`), over the whole range of each type. The
text of such a value has no blanks in it, so that nothing is trimmed, and
it is not empty, so that it is not taken for NULL.

Character data is its own text, and can be told from NULL if it is not
empty. Numbers with a fraction are left out: their text is the shortest
that is nearest to them.
-/

namespace Intake

/-- Two texts with the same bytes are the same. -/
theorem Bytes.ofString_injective : Function.Injective Bytes.ofString := by
  intro s s' heq
  have hdecode := Utf8.decode?_ofString s
  rw [heq, Utf8.decode?_ofString s'] at hdecode
  exact (Option.some.inj hdecode).symm

namespace Value

/-- A value of a type that is not NULL and whose text says all about it. -/
inductive Spelled : ColumnType → Value → Prop where
  | int16 (n : Int16) : Spelled .int16 (.int16 n)
  | int32 (n : Int32) : Spelled .int32 (.int32 n)
  | int64 (n : Int64) : Spelled .int64 (.int64 n)
  | bool (b : Bool) : Spelled .bool (.bool b)
  | text {bs : Bytes} (some : bs ≠ []) (utf8 : Utf8.WellFormed bs) : Spelled .text (.text bs)

namespace Spelled

variable {t : ColumnType} {v : Value}

theorem isNull_eq_false (h : Spelled t v) : v.isNull = false := by
  cases h <;> rfl

/-- A whole number is written without blanks. -/
theorem isBlank_toString (n : Int) : ∀ c ∈ (toString n).toList, Text.isBlank c = false := by
  have hdigits : ∀ m, ∀ c ∈ Nat.toDigits 10 m, Text.isBlank c = false := fun m c hc =>
    Text.isBlank_of_isDigit (Nat.isDigit_of_mem_toDigits (by decide) (by decide) hc)
  rw [Numeral.toList_toString]
  cases n with
  | ofNat m => exact hdigits m
  | negSucc m => exact List.forall_mem_cons.mpr ⟨by decide, hdigits (m + 1)⟩

theorem toString_ne_empty (n : Int) : (toString n).toList ≠ [] := by
  rw [Numeral.toList_toString]
  cases n with
  | ofNat m => exact Nat.toDigits_ne_nil
  | negSucc m => exact List.cons_ne_nil _ _

/-- The text of a value that is no character data is not empty and has no
blanks. -/
theorem display_clean (h : Spelled t v) (ht : t ≠ .text) :
    v.display.toList ≠ [] ∧ ∀ c ∈ v.display.toList, Text.isBlank c = false := by
  cases h with
  | int16 n => exact ⟨toString_ne_empty _, isBlank_toString _⟩
  | int32 n => exact ⟨toString_ne_empty _, isBlank_toString _⟩
  | int64 n => exact ⟨toString_ne_empty _, isBlank_toString _⟩
  | bool b =>
    have hsome : (Value.bool b).display.toList.isEmpty = false := by cases b <;> decide
    have hclean : ((Value.bool b).display.toList.all fun c => !Text.isBlank c) = true := by
      cases b <;> decide
    refine ⟨List.isEmpty_eq_false_iff.mp hsome, fun c hc => ?_⟩
    simpa using List.all_eq_true.mp hclean c hc
  | text => exact absurd rfl ht

/-- **The text of a value is read as the value.** -/
theorem valueOf?_display (h : Spelled t v) (ht : t ≠ .text) :
    t.valueOf? v.display.toList = some v := by
  cases h with
  | int16 n =>
    have hread : Numeral.readSigned (Nat.pow 2 15 - 1) (toString n.toInt).toList = .ok n.toInt :=
      Numeral.readSigned_toString n.le_toInt (Int.le_of_lt_add_one n.toInt_lt)
    simp only [ColumnType.valueOf?, ColumnType.integer?, display, hread, Option.map_some,
      Int16.ofInt_toInt]
  | int32 n =>
    have hread : Numeral.readSigned (Nat.pow 2 31 - 1) (toString n.toInt).toList = .ok n.toInt :=
      Numeral.readSigned_toString n.le_toInt (Int.le_of_lt_add_one n.toInt_lt)
    simp only [ColumnType.valueOf?, ColumnType.integer?, display, hread, Option.map_some,
      Int32.ofInt_toInt]
  | int64 n =>
    have hread : Numeral.readSigned (Nat.pow 2 63 - 1) (toString n.toInt).toList = .ok n.toInt :=
      Numeral.readSigned_toString n.le_toInt (Int.le_of_lt_add_one n.toInt_lt)
    simp only [ColumnType.valueOf?, ColumnType.integer?, display, hread, Option.map_some,
      Int64.ofInt_toInt]
  | bool b => cases b <;> rfl
  | text => exact absurd rfl ht

theorem bytes_eq_ofString (h : Spelled t v) (ht : t ≠ .text) :
    v.bytes = Bytes.ofString v.display := by
  cases h with
  | text => exact absurd rfl ht
  | _ => rfl

/-- A value has bytes in a file, which tells it from NULL. -/
theorem bytes_ne_nil (h : Spelled t v) : v.bytes ≠ [] := by
  by_cases ht : t = .text
  · subst ht
    cases h with
    | text some utf8 => exact some
  · rw [h.bytes_eq_ofString ht]
    intro hnil
    have hempty : v.display = "" := Bytes.ofString_injective hnil
    exact (h.display_clean ht).1 (congrArg String.toList hempty)

/-- **The bytes of a value are read as the value.** -/
theorem read_bytes (h : Spelled t v) : t.read v.bytes = .ok v := by
  by_cases ht : t = .text
  · subst ht
    cases h with
    | text => rfl
  · rw [ColumnType.read, if_neg ht, h.bytes_eq_ofString ht, Utf8.decode?_ofString,
      Option.bind_some, Text.trimChars_eq_self (h.display_clean ht).2, h.valueOf?_display ht]

end Spelled
end Value
end Intake
