import Intake.Text.Utf8
/-!
# What is UTF-8

A byte string is well-formed UTF-8 if it is the UTF-8 form of a text
(`Utf8.WellFormed`). The reader of this library looks at the front, byte
by byte, again and again, and it finds exactly that (`Utf8.isText_iff`).
In between stands what the bytes of a character have to be like
(`Utf8.Stands`): wherever the form of a character begins, the reader sees
one (`stands_encode`), and where it sees one, the bytes are its form
(`Stands.eq_append`).

The two other ways to come by character data need no such check. Bytes
that are all ASCII are well formed, and so is what becomes of bytes that
are code points below 256.
-/

namespace Intake.Utf8

/-- Bytes that are the UTF-8 form of a text. -/
def WellFormed (bs : Bytes) : Prop := ∃ s : String, Bytes.ofString s = bs

/-- The form of a text is made of the forms of its characters. -/
theorem ofString_ofList (cs : List Char) :
    Bytes.ofString (String.ofList cs) = cs.flatMap String.utf8EncodeChar := by
  rw [Bytes.ofString, String.toUTF8_eq_toByteArray, String.toByteArray_ofList, List.utf8Encode,
    List.data_toByteArray]

theorem wellFormed_iff {bs : Bytes} :
    WellFormed bs ↔ ∃ cs : List Char, cs.flatMap String.utf8EncodeChar = bs := by
  constructor
  · rintro ⟨s, rfl⟩
    refine ⟨s.toList, ?_⟩
    rw [← ofString_ofList, String.ofList_toList]
  · rintro ⟨cs, rfl⟩
    exact ⟨String.ofList cs, ofString_ofList cs⟩

/-! ## The form of one character -/

/-- Whether a number is that of a character. -/
def IsScalar (n : Nat) : Prop := n < 0xD800 ∨ 0xDFFF < n ∧ n < 0x110000

theorem toNat_ofNat {n : Nat} (h : IsScalar n) : (Char.ofNat n).val.toNat = n := by
  have hvalid : n.isValidChar := h
  rw [Char.ofNat, dif_pos hvalid]
  rfl

theorem isScalar_toNat (c : Char) : IsScalar c.toNat := c.valid

section Encode

variable {n : Nat}

theorem encode_one (h : n ≤ 0x7F) :
    String.utf8EncodeChar (Char.ofNat n) = [UInt8.ofNat n] := by
  simp only [String.utf8EncodeChar, toNat_ofNat (n := n) (.inl (by omega)), h, if_true]

theorem encode_two (h : 0x80 ≤ n) (h' : n ≤ 0x7FF) :
    String.utf8EncodeChar (Char.ofNat n)
      = [UInt8.ofNat (n / 64 + 0xC0), UInt8.ofNat (n % 64 + 0x80)] := by
  simp only [String.utf8EncodeChar, toNat_ofNat (n := n) (.inl (by omega))]
  rw [if_neg (by omega), if_pos h', Nat.mod_eq_of_lt (a := n / 64) (by omega)]

theorem encode_three (h : 0x800 ≤ n) (h' : n ≤ 0xFFFF) (hn : IsScalar n) :
    String.utf8EncodeChar (Char.ofNat n)
      = [UInt8.ofNat (n / 4096 + 0xE0), UInt8.ofNat (n / 64 % 64 + 0x80),
          UInt8.ofNat (n % 64 + 0x80)] := by
  simp only [String.utf8EncodeChar, toNat_ofNat hn]
  rw [if_neg (by omega), if_neg (by omega), if_pos h', Nat.mod_eq_of_lt (a := n / 4096) (by omega)]

theorem encode_four (h : 0x10000 ≤ n) (h' : n < 0x110000) :
    String.utf8EncodeChar (Char.ofNat n)
      = [UInt8.ofNat (n / 262144 + 0xF0), UInt8.ofNat (n / 4096 % 64 + 0x80),
          UInt8.ofNat (n / 64 % 64 + 0x80), UInt8.ofNat (n % 64 + 0x80)] := by
  simp only [String.utf8EncodeChar, toNat_ofNat (n := n) (.inr ⟨by omega, h'⟩)]
  rw [if_neg (by omega), if_neg (by omega), if_neg (by omega),
    Nat.mod_eq_of_lt (a := n / 262144) (by omega)]

end Encode

theorem ofNat_eq {n : Nat} {b : UInt8} (h : n = b.toNat) : UInt8.ofNat n = b := by
  rw [h, UInt8.ofNat_toNat]

/-! ## The front -/

/-- How many bytes a character has is said by its first. -/
theorem range_of_width {b : UInt8} {n : Nat} (h : width? b = some n) :
    n = 1 ∧ b.toNat < 0x80 ∨ n = 2 ∧ 0xC2 ≤ b.toNat ∧ b.toNat ≤ 0xDF ∨
      n = 3 ∧ 0xE0 ≤ b.toNat ∧ b.toNat ≤ 0xEF ∨ n = 4 ∧ 0xF0 ≤ b.toNat ∧ b.toNat ≤ 0xF4 := by
  unfold width? at h
  dsimp only at h
  split at h
  · cases h
    omega
  split at h
  · cases h
    omega
  split at h
  · cases h
    omega
  split at h
  · cases h
    omega
  · cases h

/-- The second byte is one that continues a character, and makes one that
is neither overlong nor a surrogate nor too large. -/
theorem isSecond_iff {b c : UInt8} : isSecond b c = true ↔
    0x80 ≤ c.toNat ∧ c.toNat ≤ 0xBF ∧ (b.toNat = 0xE0 → 0xA0 ≤ c.toNat) ∧
      (b.toNat = 0xED → c.toNat ≤ 0x9F) ∧ (b.toNat = 0xF0 → 0x90 ≤ c.toNat) ∧
      (b.toNat = 0xF4 → c.toNat ≤ 0x8F) := by
  unfold isSecond secondBounds
  rw [Bool.and_eq_true, decide_eq_true_eq, decide_eq_true_eq]
  repeat' split
  all_goals
    dsimp only
    omega

theorem isTail_iff {b : UInt8} : isTail b = true ↔ 0x80 ≤ b.toNat ∧ b.toNat ≤ 0xBF := by
  unfold isTail
  rw [Bool.and_eq_true, decide_eq_true_eq, decide_eq_true_eq]

/-- What there is where a character stands at the front: as many bytes as
its first says, each in its range. -/
inductive Stands (b : UInt8) : Bytes → Char → Nat → Prop where
  | one {rest : Bytes} (width : width? b = some 1) : Stands b rest (Char.ofNat b.toNat) 1
  | two {c : UInt8} {rest : Bytes} (width : width? b = some 2) (second : isSecond b c = true) :
    Stands b (c :: rest) (Char.ofNat (b.toNat % 32 * 64 + tailBits c)) 2
  | three {c d : UInt8} {rest : Bytes} (width : width? b = some 3) (second : isSecond b c = true)
      (third : isTail d = true) :
    Stands b (c :: d :: rest)
      (Char.ofNat ((b.toNat % 16 * 64 + tailBits c) * 64 + tailBits d)) 3
  | four {c d e : UInt8} {rest : Bytes} (width : width? b = some 4)
      (second : isSecond b c = true) (third : isTail d = true) (fourth : isTail e = true) :
    Stands b (c :: d :: e :: rest)
      (Char.ofNat (((b.toNat % 8 * 64 + tailBits c) * 64 + tailBits d) * 64 + tailBits e)) 4

section Stands

variable {b : UInt8} {rest : Bytes} {scalar : Char} {size : Nat}

theorem Stands.front_eq (h : Stands b rest scalar size) : front b rest = .character scalar size := by
  cases h with
  | one width => simp only [front, width]
  | two width second => simp [front, width, second]
  | three width second third => simp [front, width, second, third]
  | four width second third fourth => simp [front, width, second, third, fourth]

theorem stands_of_front (h : front b rest = .character scalar size) :
    Stands b rest scalar size := by
  cases hw : width? b with
  | none =>
    simp only [front, hw] at h
    cases h
  | some n => ?_
  rcases range_of_width hw with ⟨rfl, -⟩ | ⟨rfl, -⟩ | ⟨rfl, -⟩ | ⟨rfl, -⟩ <;>
    simp only [front, hw] at h
  · cases h
    exact .one hw
  all_goals
    rcases rest with _ | ⟨c, rest⟩
    · cases h
    cases hc : isSecond b c with
    | false => simp [hc] at h
    | true => ?_
  · simp only [hc] at h
    cases h
    exact .two hw hc
  all_goals
    rcases rest with _ | ⟨d, rest⟩
    · simp [hc] at h
    cases hd : isTail d with
    | false => simp [hc, hd] at h
    | true => ?_
  · simp only [hc, hd] at h
    cases h
    exact .three hw hc hd
  · rcases rest with _ | ⟨e, rest⟩
    · simp [hc, hd] at h
    cases he : isTail e with
    | false => simp [hc, hd, he] at h
    | true =>
      simp only [hc, hd, he] at h
      cases h
      exact .four hw hc hd he

/-- **A character at the front is there in its form.** -/
theorem Stands.eq_append (h : Stands b rest scalar size) :
    b :: rest = String.utf8EncodeChar scalar ++ behind size rest := by
  cases h with
  | one width =>
    have hfirst := range_of_width width
    rw [encode_one (by omega), ofNat_eq rfl]
    rfl
  | @two c _ width second =>
    have hfirst := range_of_width width
    have hsecond := isSecond_iff.mp second
    rw [tailBits, encode_two (by omega) (by omega), ofNat_eq (b := b) (by omega),
      ofNat_eq (b := c) (by omega)]
    rfl
  | @three c d _ width second third =>
    have hfirst := range_of_width width
    have hsecond := isSecond_iff.mp second
    have hthird := isTail_iff.mp third
    rw [tailBits, tailBits, encode_three (by omega) (by omega) (by unfold IsScalar; omega),
      ofNat_eq (b := b) (by omega), ofNat_eq (b := c) (by omega), ofNat_eq (b := d) (by omega)]
    rfl
  | @four c d e _ width second third fourth =>
    have hfirst := range_of_width width
    have hsecond := isSecond_iff.mp second
    have hthird := isTail_iff.mp third
    have hfourth := isTail_iff.mp fourth
    rw [tailBits, tailBits, tailBits, encode_four (by omega) (by omega),
      ofNat_eq (b := b) (by omega), ofNat_eq (b := c) (by omega), ofNat_eq (b := d) (by omega),
      ofNat_eq (b := e) (by omega)]
    rfl

end Stands

/-- How many bytes a character has, by its first. -/
theorem width_of_range {b : UInt8} :
    (b.toNat < 0x80 → width? b = some 1) ∧
      (0xC2 ≤ b.toNat → b.toNat ≤ 0xDF → width? b = some 2) ∧
      (0xE0 ≤ b.toNat → b.toNat ≤ 0xEF → width? b = some 3) ∧
      (0xF0 ≤ b.toNat → b.toNat ≤ 0xF4 → width? b = some 4) := by
  unfold width?
  dsimp only
  refine ⟨?_, ?_, ?_, ?_⟩ <;> intros <;> repeat' split
  all_goals first | rfl | omega

/-- **The form of a character stands at the front.** -/
theorem stands_encode (scalar : Char) (rest : Bytes) :
    ∃ b tail, String.utf8EncodeChar scalar = b :: tail ∧
      Stands b (tail ++ rest) scalar (tail.length + 1) := by
  obtain ⟨n, hn, rfl⟩ : ∃ n, IsScalar n ∧ Char.ofNat n = scalar :=
    ⟨scalar.toNat, isScalar_toNat scalar, Char.ofNat_toNat scalar⟩
  unfold IsScalar at hn
  have toNat_byte : ∀ m < 256, (UInt8.ofNat m).toNat = m := by
    intro m hm
    rw [UInt8.toNat_ofNat', Nat.mod_eq_of_lt hm]
  rcases Nat.lt_or_ge n 0x80 with h1 | h1
  · have hb := toNat_byte n (by omega)
    refine ⟨_, _, encode_one (by omega), ?_⟩
    have hstands := @Stands.one _ rest (width_of_range.1 (hb ▸ h1))
    rw [hb] at hstands
    exact hstands
  rcases Nat.lt_or_ge n 0x800 with h2 | h2
  · have hb := toNat_byte (n / 64 + 0xC0) (by omega)
    have hc := toNat_byte (n % 64 + 0x80) (by omega)
    have hnumber : (n / 64 + 0xC0) % 32 * 64 + (n % 64 + 0x80) % 64 = n := by omega
    refine ⟨_, _, encode_two (by omega) (by omega), ?_⟩
    generalize UInt8.ofNat (n / 64 + 0xC0) = b at hb ⊢
    generalize UInt8.ofNat (n % 64 + 0x80) = c at hc ⊢
    have hstands := @Stands.two b c rest (width_of_range.2.1 (by omega) (by omega))
      (isSecond_iff.mpr (by omega))
    rw [tailBits, hb, hc, hnumber] at hstands
    exact hstands
  rcases Nat.lt_or_ge n 0x10000 with h3 | h3
  · have hb := toNat_byte (n / 4096 + 0xE0) (by omega)
    have hc := toNat_byte (n / 64 % 64 + 0x80) (by omega)
    have hd := toNat_byte (n % 64 + 0x80) (by omega)
    have hnumber : ((n / 4096 + 0xE0) % 16 * 64 + (n / 64 % 64 + 0x80) % 64) * 64
        + (n % 64 + 0x80) % 64 = n := by omega
    refine ⟨_, _, encode_three (by omega) (by omega) (by unfold IsScalar; omega), ?_⟩
    generalize UInt8.ofNat (n / 4096 + 0xE0) = b at hb ⊢
    generalize UInt8.ofNat (n / 64 % 64 + 0x80) = c at hc ⊢
    generalize UInt8.ofNat (n % 64 + 0x80) = d at hd ⊢
    have hstands := @Stands.three b c d rest (width_of_range.2.2.1 (by omega) (by omega))
      (isSecond_iff.mpr (by omega)) (isTail_iff.mpr (by omega))
    rw [tailBits, tailBits, hb, hc, hd, hnumber] at hstands
    exact hstands
  · have hb := toNat_byte (n / 262144 + 0xF0) (by omega)
    have hc := toNat_byte (n / 4096 % 64 + 0x80) (by omega)
    have hd := toNat_byte (n / 64 % 64 + 0x80) (by omega)
    have he := toNat_byte (n % 64 + 0x80) (by omega)
    have hnumber : (((n / 262144 + 0xF0) % 8 * 64 + (n / 4096 % 64 + 0x80) % 64) * 64
        + (n / 64 % 64 + 0x80) % 64) * 64 + (n % 64 + 0x80) % 64 = n := by omega
    refine ⟨_, _, encode_four (by omega) (by omega), ?_⟩
    generalize UInt8.ofNat (n / 262144 + 0xF0) = b at hb ⊢
    generalize UInt8.ofNat (n / 4096 % 64 + 0x80) = c at hc ⊢
    generalize UInt8.ofNat (n / 64 % 64 + 0x80) = d at hd ⊢
    generalize UInt8.ofNat (n % 64 + 0x80) = e at he ⊢
    have hstands := @Stands.four b c d e rest (width_of_range.2.2.2 (by omega) (by omega))
      (isSecond_iff.mpr (by omega)) (isTail_iff.mpr (by omega)) (isTail_iff.mpr (by omega))
    rw [tailBits, tailBits, tailBits, hb, hc, hd, he, hnumber] at hstands
    exact hstands

/-! ## Whole byte strings -/

/-- **No fault is found exactly in the forms of texts.** From left to right
by induction on the bytes, a character at a time; from right to left on
the characters. -/
theorem faultFrom_eq_none_iff (before : Nat) (bs : Bytes) :
    faultFrom before bs = none ↔ ∃ cs : List Char, cs.flatMap String.utf8EncodeChar = bs := by
  constructor
  · intro h
    induction hk : bs.length using Nat.strongRecOn generalizing before bs with
    | ind k ih =>
      cases bs with
      | nil => exact ⟨[], rfl⟩
      | cons b rest =>
        rw [faultFrom] at h
        cases hfront : front b rest with
        | character scalar size =>
          rw [hfront] at h
          have hless : (behind size rest).length < k := by
            have hle := length_behind_le size rest
            rw [List.length_cons] at hk
            omega
          obtain ⟨cs, hcs⟩ := ih _ hless (before + size) (behind size rest) h rfl
          refine ⟨scalar :: cs, ?_⟩
          rw [List.flatMap_cons, hcs, (stands_of_front hfront).eq_append]
        | malformed size =>
          rw [hfront] at h
          cases h
        | truncated =>
          rw [hfront] at h
          cases h
  · rintro ⟨cs, rfl⟩
    induction cs generalizing before with
    | nil => rw [List.flatMap_nil, faultFrom]
    | cons scalar cs ih =>
      obtain ⟨b, tail, hencode, hstands⟩ :=
        stands_encode scalar (cs.flatMap String.utf8EncodeChar)
      rw [List.flatMap_cons, hencode, List.cons_append, faultFrom, hstands.front_eq]
      dsimp only
      rw [behind, Nat.add_sub_cancel, List.drop_left]
      exact ih _

/-- **The check finds out what is UTF-8.** -/
theorem isText_iff (bs : Bytes) : isText bs = true ↔ WellFormed bs := by
  rw [isText, Option.isNone_iff_eq_none, fault?, faultFrom_eq_none_iff, wellFormed_iff]

/-! ## The first fault -/

/-- How many bytes the longest beginning of `bs` that is UTF-8 has. -/
structure LongestText (bs : Bytes) (n : Nat) : Prop where
  le_length : n ≤ bs.length
  wellFormed : WellFormed (bs.take n)
  longest : ∀ part, part <+: bs → WellFormed part → part.length ≤ n

theorem Stands.length_encode {b : UInt8} {rest : Bytes} {scalar : Char} {size : Nat}
    (h : Stands b rest scalar size) : (String.utf8EncodeChar scalar).length = size := by
  obtain ⟨b', tail, hencode, hstands⟩ := stands_encode scalar (behind size rest)
  have heq := h.eq_append
  rw [hencode, List.cons_append] at heq
  injection heq with hb hrest
  subst hb
  have hfront := h.front_eq
  rw [hrest, hstands.front_eq] at hfront
  injection hfront with _ hsize
  rw [hencode, List.length_cons, hsize]

/-- UTF-8 at the beginning of some bytes is nothing, or it begins with the
character that stands there. -/
theorem WellFormed.cases_front {part : Bytes} (h : WellFormed part) {b : UInt8} {rest : Bytes}
    (hbegins : part <+: b :: rest) : part = [] ∨ ∃ scalar size part',
      front b rest = .character scalar size ∧ part.length = size + part'.length ∧
        WellFormed part' ∧ part' <+: behind size rest := by
  obtain ⟨cs, rfl⟩ := wellFormed_iff.mp h
  cases cs with
  | nil => exact .inl rfl
  | cons scalar cs =>
    obtain ⟨more, hmore⟩ := hbegins
    obtain ⟨b', tail, hencode, hstands⟩ :=
      stands_encode scalar (cs.flatMap String.utf8EncodeChar ++ more)
    rw [List.flatMap_cons, List.append_assoc, hencode, List.cons_append] at hmore
    injection hmore with hb hrest
    subst hb hrest
    refine .inr ⟨scalar, tail.length + 1, cs.flatMap String.utf8EncodeChar, hstands.front_eq, ?_,
      wellFormed_iff.mpr ⟨cs, rfl⟩, more, ?_⟩
    · rw [List.flatMap_cons, List.length_append, hencode, List.length_cons]
    · rw [behind, Nat.add_sub_cancel, List.drop_left]

/-- A run of bytes that starts no character is not empty. -/
theorem size_pos_of_malformed {b : UInt8} {rest : Bytes} {size : Nat}
    (h : front b rest = .malformed size) : 0 < size := by
  unfold front at h
  repeat' split at h
  all_goals
    cases h
    try decide

/-- Where no character stands, nothing is UTF-8. -/
theorem longestText_zero {b : UInt8} {rest : Bytes}
    (h : ∀ scalar size, front b rest ≠ .character scalar size) : LongestText (b :: rest) 0 where
  le_length := Nat.zero_le _
  wellFormed := ⟨"", rfl⟩
  longest := by
    intro part hbegins hpart
    obtain rfl | ⟨scalar, size, -, hfront, -⟩ := hpart.cases_front hbegins
    · exact Nat.le_refl _
    · exact absurd hfront (h scalar size)

/-- A character that stands at the front is part of the longest text. -/
theorem LongestText.character {b : UInt8} {rest : Bytes} {scalar : Char} {size n : Nat}
    (h : LongestText (behind size rest) n) (hfront : front b rest = .character scalar size) :
    LongestText (b :: rest) (size + n) := by
  have hstands := stands_of_front hfront
  have hsize := hstands.length_encode
  have heq := hstands.eq_append
  refine ⟨?_, ?_, fun part hbegins hpart => ?_⟩
  · rw [heq, List.length_append, hsize]
    exact Nat.add_le_add_left h.le_length size
  · obtain ⟨cs, hcs⟩ := wellFormed_iff.mp h.wellFormed
    refine wellFormed_iff.mpr ⟨scalar :: cs, ?_⟩
    rw [heq, ← hsize, List.take_length_add_append, hsize, List.flatMap_cons, hcs]
  · obtain rfl | ⟨scalar', size', part', hfront', hlength, hpart', hbegins'⟩ :=
      hpart.cases_front hbegins
    · exact Nat.zero_le _
    · rw [hfront] at hfront'
      injection hfront' with _ hsame
      subst hsame
      rw [hlength]
      exact Nat.add_le_add_left (h.longest part' hbegins' hpart') size

/-- **The first fault comes behind the longest text that there is**, by
induction on the bytes, a character at a time. -/
theorem faultFrom_eq_some {before n : Nat} {bs bad : Bytes}
    (h : faultFrom before bs = some (n, bad)) :
    ∃ m, n = before + m ∧ LongestText bs m ∧ bad ≠ [] ∧ bad <+: bs.drop m := by
  fun_induction faultFrom before bs with
  | case1 => cases h
  | case2 before b rest scalar size hfront ih =>
    obtain ⟨m, rfl, hlongest, hsome, hbad⟩ := ih h
    have hstands := stands_of_front hfront
    refine ⟨size + m, Nat.add_assoc .., hlongest.character hfront, hsome, ?_⟩
    rw [hstands.eq_append, ← hstands.length_encode, List.drop_length_add_append,
      hstands.length_encode]
    exact hbad
  | case3 before b rest size hfront =>
    cases h
    have hsize := size_pos_of_malformed hfront
    refine ⟨0, rfl, longestText_zero fun _ _ h => ?_, ?_, List.take_prefix ..⟩
    · rw [hfront] at h
      cases h
    · rw [← Nat.succ_pred_eq_of_pos hsize]
      exact List.cons_ne_nil _ _
  | case4 before b rest hfront =>
    cases h
    refine ⟨0, rfl, longestText_zero fun _ _ h => ?_, List.cons_ne_nil _ _, List.prefix_rfl⟩
    rw [hfront] at h
    cases h

/-! ## Reading texts -/

/-- **The form of a text is read as the text**, by induction on its
characters. -/
theorem lossyOnto_encode (mark : Char) (acc cs : List Char) :
    lossyOnto mark acc (cs.flatMap String.utf8EncodeChar) = cs.reverse ++ acc := by
  induction cs generalizing acc with
  | nil => rw [List.flatMap_nil, lossyOnto, List.reverse_nil, List.nil_append]
  | cons scalar cs ih =>
    obtain ⟨b, tail, hencode, hstands⟩ :=
      stands_encode scalar (cs.flatMap String.utf8EncodeChar)
    rw [List.flatMap_cons, hencode, List.cons_append, lossyOnto, hstands.front_eq]
    dsimp only
    rw [behind, Nat.add_sub_cancel, List.drop_left, ih, List.reverse_cons, List.append_assoc,
      List.singleton_append]

theorem decode?_ofString (s : String) : decode? (Bytes.ofString s) = some s := by
  have htext : isText (Bytes.ofString s) = true := (isText_iff _).mpr ⟨s, rfl⟩
  have hbytes : Bytes.ofString s = s.toList.flatMap String.utf8EncodeChar := by
    rw [← ofString_ofList, String.ofList_toList]
  rw [decode?, if_pos htext, hbytes, lossy, lossyOnto_encode, List.append_nil, List.reverse_reverse,
    String.ofList_toList]

/-! ## Bytes that need no check -/

/-- ASCII is UTF-8. -/
theorem wellFormed_of_isAscii {bs : Bytes} (h : isAscii bs = true) : WellFormed bs := by
  refine wellFormed_iff.mpr ⟨bs.map fun b => Char.ofNat b.toNat, ?_⟩
  unfold isAscii at h
  rw [List.all_eq_true] at h
  induction bs with
  | nil => rfl
  | cons b bs ih =>
    obtain ⟨hb, hbs⟩ := List.forall_mem_cons.mp h
    rw [List.map_cons, List.flatMap_cons, ih hbs,
      encode_one (Nat.le_of_lt_succ (of_decide_eq_true hb)), UInt8.ofNat_toNat]
    rfl

/-- The text of bytes that are read as code points. -/
def latin1Text (bs : Bytes) : String := String.ofList (bs.map fun b => Char.ofNat b.toNat)

/-- Bytes read as code points become the UTF-8 form of that text. -/
theorem ofLatin1_eq (bs : Bytes) : ofLatin1 bs = Bytes.ofString (latin1Text bs) := by
  rw [ofLatin1, latin1Text, ofString_ofList, List.flatMap_map]
  refine congrArg (bs.flatMap ·) (funext fun b => ?_)
  have hb := b.toNat_lt
  split
  · rw [encode_one (by omega), UInt8.ofNat_toNat]
  · rw [encode_two (by omega) (by omega), Nat.add_comm (b.toNat / 64), Nat.add_comm (b.toNat % 64)]

theorem wellFormed_ofLatin1 (bs : Bytes) : WellFormed (ofLatin1 bs) :=
  ⟨latin1Text bs, (ofLatin1_eq bs).symm⟩

/-- **Bytes that were read as code points are had back from their text.** -/
theorem decode?_ofLatin1 (bs : Bytes) : (decode? (ofLatin1 bs)).map Bytes.ascii = some bs := by
  have hback : ∀ b : UInt8, UInt8.ofNat (Char.ofNat b.toNat).toNat = b := by
    intro b
    have hb := b.toNat_lt
    rw [show (Char.ofNat b.toNat).toNat = b.toNat from toNat_ofNat (.inl (by omega)),
      UInt8.ofNat_toNat]
  rw [ofLatin1_eq, decode?_ofString, Option.map_some, Bytes.ascii, latin1Text,
    String.toList_ofList, List.map_map, Option.some.injEq]
  exact (List.map_congr_left fun b _ => hback b).trans (List.map_id bs)

theorem length_le_ofLatin1 (bs : Bytes) : bs.length ≤ (ofLatin1 bs).length := by
  induction bs with
  | nil => exact Nat.le_refl _
  | cons b bs ih =>
    unfold ofLatin1 at ih ⊢
    rw [List.flatMap_cons, List.length_append, List.length_cons]
    split
    · rw [List.length_singleton]
      omega
    · rw [List.length_cons]
      omega

/-- Bytes read as code points stay what they are exactly if all of them are
ASCII: every other byte becomes two. -/
theorem ofLatin1_eq_self_iff {bs : Bytes} : ofLatin1 bs = bs ↔ isAscii bs = true := by
  induction bs with
  | nil => exact iff_of_true rfl rfl
  | cons b bs ih =>
    have hlength := length_le_ofLatin1 bs
    unfold ofLatin1 at ih hlength ⊢
    unfold isAscii at ih ⊢
    rw [List.flatMap_cons, List.all_cons, Bool.and_eq_true, decide_eq_true_eq, ← ih]
    split
    · next hb =>
      rw [List.singleton_append, List.cons.injEq]
      exact and_congr_left fun _ => iff_of_true rfl hb
    · next hb =>
      refine iff_of_false (fun heq => ?_) fun h => hb h.1
      have hsize := congrArg List.length heq
      rw [List.length_append, List.length_cons, List.length_cons, List.length_cons,
        List.length_nil] at hsize
      omega

end Intake.Utf8
