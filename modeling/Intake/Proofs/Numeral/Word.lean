import Intake.Bytes
/-!
# Numbers in words of 64 bits

A number of a fixed-width record has so many bytes, and a machine reads it
by way of a word. It puts the bytes at the low end of one, zeros above
them. If the number has a sign it then moves them to the high end, so that
their sign is that of the word, and back again, which fills what was above
them with copies of the sign.

Each of these steps asks something of the number of bytes, and is refused
where it is not met: there are not more than a word has, and a word is not
moved by all of its bits. Where both are met the word is the number
(`Bytes.unsignedWord?_eq`, `Bytes.signedWord?_eq`).
-/

namespace Intake.Bytes

/-! ## Without a sign -/

/-- The word with the bytes at its low end and zeros above them. -/
def unsignedWord? (bs : Bytes) : Option (BitVec 64) :=
  if bs.length ≤ 8 then
    some (BitVec.ofNat 64 (unsigned (bs ++ List.replicate (8 - bs.length) 0)))
  else none

theorem unsigned_zeros (n : Nat) : unsigned (List.replicate n 0) = 0 := by
  induction n with
  | zero => rfl
  | succ n ih =>
    rw [List.replicate_succ, unsigned, ih]
    rfl

/-- Zeros above a number do not change it. -/
theorem unsigned_append_zeros (bs : Bytes) (n : Nat) :
    unsigned (bs ++ List.replicate n 0) = unsigned bs := by
  induction bs with
  | nil => exact unsigned_zeros n
  | cons b bs ih => rw [List.cons_append, unsigned, ih, unsigned]

theorem unsigned_lt_word {bs : Bytes} (h : bs.length ≤ 8) : unsigned bs < UInt64.size :=
  Nat.lt_of_lt_of_le (unsigned_lt bs) (Nat.pow_le_pow_right (show 0 < 256 by decide) h)

/-- **The word is the number that the bytes write.** -/
theorem unsignedWord?_eq {bs : Bytes} (h : bs.length ≤ 8) :
    ∃ w, unsignedWord? bs = some w ∧ w.toNat = unsigned bs := by
  refine ⟨_, if_pos h, ?_⟩
  rw [unsigned_append_zeros, BitVec.toNat_ofNat, Nat.mod_eq_of_lt (unsigned_lt_word h)]

/-! ## With a sign -/

/-- How far a number of so many bytes is from the high end of a word. -/
def gap? (length : Nat) : Option Nat :=
  if 8 * length ≤ 64 ∧ 64 - 8 * length < 64 then some (64 - 8 * length) else none

/-- The word with the bytes at its low end and copies of their sign above
them. -/
def signedWord? (bs : Bytes) : Option (BitVec 64) :=
  match gap? bs.length, unsignedWord? bs with
  | some gap, some w => some ((w <<< gap).sshiftRight gap)
  | _, _ => none

theorem gap?_eq {length : Nat} (hsome : 0 < length) (h : length ≤ 8) :
    gap? length = some (64 - 8 * length) :=
  if_pos ⟨by omega, by omega⟩

theorem gap?_eq_none {length : Nat} (h : length = 0 ∨ 8 < length) : gap? length = none :=
  if_neg (by omega)

/-- A span of bytes and the gap above them make up a word. -/
theorem span_mul_gap {length : Nat} (h : length ≤ 8) :
    Nat.pow 256 length * Nat.pow 2 (64 - 8 * length) = UInt64.size := by
  have hbytes : Nat.pow 256 length = Nat.pow 2 (8 * length) := (Nat.pow_mul 2 8 length).symm
  have hsum : 8 * length + (64 - 8 * length) = 64 := by omega
  calc Nat.pow 256 length * Nat.pow 2 (64 - 8 * length)
      = Nat.pow 2 (8 * length) * Nat.pow 2 (64 - 8 * length) := by rw [hbytes]
    _ = Nat.pow 2 (8 * length + (64 - 8 * length)) := (Nat.pow_add 2 _ _).symm
    _ = UInt64.size := congrArg (Nat.pow 2) hsum

/-- At the high end of a word the number is so many times greater, sign and
all. -/
theorem toInt_shiftLeft_gap {bs : Bytes} (h : bs.length ≤ 8) {w : BitVec 64}
    (hw : w.toNat = unsigned bs) :
    (w <<< (64 - 8 * bs.length)).toInt = signed bs * Nat.pow 2 (64 - 8 * bs.length) := by
  have hspan := span_mul_gap h
  have hlt : unsigned bs < Nat.pow 256 bs.length := unsigned_lt bs
  generalize 64 - 8 * bs.length = gap at hspan ⊢
  have hgap : 0 < Nat.pow 2 gap := Nat.two_pow_pos gap
  have hroom : unsigned bs * Nat.pow 2 gap < UInt64.size :=
    hspan ▸ Nat.mul_lt_mul_of_pos_right hlt hgap
  have hnat : (w <<< gap).toNat = unsigned bs * Nat.pow 2 gap := by
    rw [BitVec.toNat_shiftLeft, Nat.shiftLeft_eq, hw]
    exact Nat.mod_eq_of_lt hroom
  have hhalf : 2 * (unsigned bs * Nat.pow 2 gap) < UInt64.size
      ↔ 2 * unsigned bs < Nat.pow 256 bs.length := by
    rw [← hspan, ← Nat.mul_assoc]
    exact Nat.mul_lt_mul_right hgap
  rw [BitVec.toInt_eq_toNat_cond, hnat, signed]
  by_cases hsign : 2 * unsigned bs < Nat.pow 256 bs.length
  · rw [if_pos (hhalf.mpr hsign), if_pos hsign, Int.natCast_mul]
  · rw [if_neg (mt hhalf.mp hsign), if_neg hsign]
    show ((unsigned bs * Nat.pow 2 gap : Nat) : Int) - (UInt64.size : Nat) = _
    rw [← hspan, Int.sub_mul, Int.natCast_mul, Int.natCast_mul]

/-- **The word is the number that the bytes write in two's complement.** -/
theorem signedWord?_eq {bs : Bytes} (hsome : 0 < bs.length) (h : bs.length ≤ 8) :
    ∃ w, signedWord? bs = some w ∧ w.toInt = signed bs := by
  obtain ⟨w, hword, hw⟩ := unsignedWord?_eq h
  refine ⟨_, by rw [signedWord?, gap?_eq hsome h, hword], ?_⟩
  rw [BitVec.toInt_sshiftRight, toInt_shiftLeft_gap h hw, Int.shiftRight_eq_div_pow]
  exact Int.mul_ediv_cancel _ (Int.natCast_ne_zero.mpr (Nat.ne_of_gt (Nat.two_pow_pos _)))

/-! ## Where there is none -/

theorem isSome_unsignedWord? (bs : Bytes) : (unsignedWord? bs).isSome = true ↔ bs.length ≤ 8 := by
  unfold unsignedWord?
  split <;> simp_all

theorem isSome_signedWord? (bs : Bytes) :
    (signedWord? bs).isSome = true ↔ 0 < bs.length ∧ bs.length ≤ 8 := by
  by_cases h : 0 < bs.length ∧ bs.length ≤ 8
  · obtain ⟨w, hword, -⟩ := signedWord?_eq h.1 h.2
    rw [hword]
    exact iff_of_true rfl h
  · rw [signedWord?, gap?_eq_none (by omega)]
    exact iff_of_false Bool.noConfusion h

end Intake.Bytes
