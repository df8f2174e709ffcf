import Intake.Numeral.Integer
/-!
# Reading a number that was written

A whole number in its usual form is read back as itself, if it is in the
range of its type (`Numeral.readSigned_toString`), and refused otherwise
(`Numeral.readSigned_toString_error`). The digits are followed from left
to right, as they are read: what has been read so far never goes beyond
the number that it will come to, so that no digit is one too many; and if
that number is beyond the range, then some digit is the one that leaves
it.
-/

namespace Intake.Numeral

open Nat (ofDigitChars toDigits)

theorem digit?_of_isDigit {c : Char} (h : c.isDigit = true) :
    Text.digit? c = some (c.toNat - '0'.toNat) := by
  have hrange : '0'.toNat ≤ c.toNat ∧ c.toNat ≤ '9'.toNat := by
    simpa [Char.isDigit, UInt32.le_iff_toNat_le] using h
  rw [Text.digit?, if_pos hrange]

/-- More digits make no smaller number. -/
theorem le_ofDigitChars (cs : List Char) (n : Nat) : n ≤ ofDigitChars 10 cs n := by
  rw [Nat.ofDigitChars_eq_ofDigitChars_zero]
  exact Nat.le_trans (Nat.le_mul_of_pos_left n (Nat.pow_pos (by decide))) (Nat.le_add_right _ _)

/-- Digits are read as the number that they make, if that is within bounds. -/
theorem readDigits_eq {cs : List Char} (hdigits : ∀ c ∈ cs, c.isDigit = true) {bound acc : Nat}
    (hbound : ofDigitChars 10 cs acc ≤ bound) (beyond : Fault) :
    readDigits bound beyond acc cs = .ok (ofDigitChars 10 cs acc) := by
  induction cs generalizing acc with
  | nil => rfl
  | cons c cs ih =>
    obtain ⟨hc, hcs⟩ := List.forall_mem_cons.mp hdigits
    rw [Nat.ofDigitChars_cons] at hbound ⊢
    rw [readDigits, digit?_of_isDigit hc]
    dsimp only
    rw [if_pos (Nat.le_trans (le_ofDigitChars cs _) hbound), ih hcs hbound]

/-- Digits of a number that is not are refused. -/
theorem readDigits_error {cs : List Char} (hdigits : ∀ c ∈ cs, c.isDigit = true) {bound acc : Nat}
    (hacc : acc ≤ bound) (hbound : bound < ofDigitChars 10 cs acc) (beyond : Fault) :
    readDigits bound beyond acc cs = .error beyond := by
  induction cs generalizing acc with
  | nil => exact absurd hbound (Nat.not_lt.mpr hacc)
  | cons c cs ih =>
    obtain ⟨hc, hcs⟩ := List.forall_mem_cons.mp hdigits
    rw [Nat.ofDigitChars_cons] at hbound
    rw [readDigits, digit?_of_isDigit hc]
    dsimp only
    split
    · next hle => exact ih hcs hle hbound
    · rfl

theorem readDigits_toDigits {n bound : Nat} (h : n ≤ bound) (beyond : Fault) :
    readDigits bound beyond 0 (toDigits 10 n) = .ok n := by
  have hdigits : ∀ c ∈ toDigits 10 n, c.isDigit = true := fun c hc =>
    Nat.isDigit_of_mem_toDigits (by decide) (by decide) hc
  have hvalue : ofDigitChars 10 (toDigits 10 n) 0 = n := Nat.ofDigitChars_ten_toDigits
  rw [readDigits_eq hdigits (hvalue.symm ▸ h), hvalue]

theorem readDigits_toDigits_error {n bound : Nat} (h : bound < n) (beyond : Fault) :
    readDigits bound beyond 0 (toDigits 10 n) = .error beyond := by
  have hdigits : ∀ c ∈ toDigits 10 n, c.isDigit = true := fun c hc =>
    Nat.isDigit_of_mem_toDigits (by decide) (by decide) hc
  have hvalue : ofDigitChars 10 (toDigits 10 n) 0 = n := Nat.ofDigitChars_ten_toDigits
  exact readDigits_error hdigits (Nat.zero_le bound) (hvalue.symm ▸ h) beyond

/-- The digits of a number begin with one. -/
theorem exists_digit (n : Nat) : ∃ c cs, toDigits 10 n = c :: cs ∧ c.isDigit = true := by
  obtain ⟨c, cs, heq⟩ := List.exists_cons_of_ne_nil (Nat.toDigits_ne_nil (n := n) (b := 10))
  exact ⟨c, cs, heq, Nat.isDigit_of_mem_toDigits (by decide) (by decide)
    (heq ▸ List.mem_cons_self)⟩

/-- A digit is no sign, so that digits do not begin like anything else that
is looked for in front of them. -/
theorem cons_ne_of_isDigit {c : Char} (h : c.isDigit = true) {cs : List Char} {sign : Char}
    (hsign : sign.isDigit = false) {tail : List Char} : c :: cs ≠ sign :: tail := by
  intro heq
  cases heq
  rw [h] at hsign
  cases hsign

/-- Without a sign, the digits are all there is. -/
theorem readSigned_of_isDigit {c : Char} (h : c.isDigit = true) (bound : Nat) (cs : List Char) :
    readSigned bound (c :: cs) = (readDigits bound .tooLarge 0 (c :: cs)).map Int.ofNat := by
  rw [readSigned]
  · exact List.cons_ne_nil c cs
  · exact cons_ne_of_isDigit h rfl
  · exact cons_ne_of_isDigit h rfl
  · exact fun _ => cons_ne_of_isDigit h rfl
  · exact fun _ => cons_ne_of_isDigit h rfl

theorem readUnsigned_of_isDigit {c : Char} (h : c.isDigit = true) (bound : Nat)
    (cs : List Char) : readUnsigned bound (c :: cs) = readDigits bound .tooLarge 0 (c :: cs) := by
  rw [readUnsigned]
  · exact List.cons_ne_nil c cs
  · exact cons_ne_of_isDigit h rfl
  · exact cons_ne_of_isDigit h rfl
  · exact fun _ => cons_ne_of_isDigit h rfl

/-- **A count is read back as itself.** -/
theorem count?_toDigits {n : Nat} (h : n ≤ maxCount) : count? (toDigits 10 n) = some n := by
  obtain ⟨c, cs, heq, hdigit⟩ := exists_digit n
  have hread : readUnsigned maxCount (toDigits 10 n) = .ok n := by
    rw [heq, readUnsigned_of_isDigit hdigit, ← heq, readDigits_toDigits h]
  rw [count?, hread]

/-- The characters of a whole number: digits, perhaps with a minus in
front. -/
theorem toList_toString (n : Int) :
    (toString n).toList = match n with
      | .ofNat m => toDigits 10 m
      | .negSucc m => '-' :: toDigits 10 (m + 1) := by
  cases n with
  | ofNat m => exact Nat.toList_repr
  | negSucc m =>
    show ("-" ++ Nat.repr (m + 1)).toList = _
    rw [String.toList_append, Nat.toList_repr]
    rfl

/-- What is read of a whole number are its digits, the sign apart. -/
theorem readSigned_digits (n : Int) (bound : Nat) :
    readSigned bound (toString n).toList = match n with
      | .ofNat m => (readDigits bound .tooLarge 0 (toDigits 10 m)).map Int.ofNat
      | .negSucc m =>
        (readDigits (bound + 1) .tooSmall 0 (toDigits 10 (m + 1))).map fun n => -Int.ofNat n := by
  rw [toList_toString]
  cases n with
  | ofNat m =>
    obtain ⟨c, cs, heq, hdigit⟩ := exists_digit m
    dsimp only
    rw [heq, readSigned_of_isDigit hdigit]
  | negSucc m =>
    obtain ⟨c, cs, heq, -⟩ := exists_digit (m + 1)
    dsimp only
    rw [heq, readSigned]
    exact List.cons_ne_nil c cs

/-- **A whole number in range is read back as itself.** -/
theorem readSigned_toString {n : Int} {bound : Nat} (hlow : -(bound + 1 : Int) ≤ n)
    (hhigh : n ≤ bound) : readSigned bound (toString n).toList = .ok n := by
  rw [readSigned_digits]
  cases n with
  | ofNat m =>
    have hm : m ≤ bound := Int.ofNat_le.mp hhigh
    dsimp only
    rw [readDigits_toDigits hm]
    rfl
  | negSucc m =>
    have hm : m + 1 ≤ bound + 1 := by omega
    dsimp only
    rw [readDigits_toDigits hm]
    rfl

/-- **A whole number out of range is refused.** -/
theorem readSigned_toString_error {n : Int} {bound : Nat}
    (h : ¬ (-(bound + 1 : Int) ≤ n ∧ n ≤ bound)) :
    ∃ fault, readSigned bound (toString n).toList = .error fault := by
  rw [readSigned_digits]
  cases n with
  | ofNat m =>
    have hm : bound < m := by
      rw [Int.ofNat_eq_natCast] at h
      omega
    dsimp only
    rw [readDigits_toDigits_error hm]
    exact ⟨_, rfl⟩
  | negSucc m =>
    have hm : bound + 1 < m + 1 := by omega
    dsimp only
    rw [readDigits_toDigits_error hm]
    exact ⟨_, rfl⟩

end Intake.Numeral
