import Intake.Text.Blank
import Intake.Text.Letters
/-!
# Trimming and cutting text

What the small notations of options, columns and control files are read
with: blanks are trimmed, words are cut off the front, and a text is cut
at a separator. Each lemma says what the operation makes of a text that
was put together: blanks around a text that has none at its ends
(`Trimmed`) come off again and nothing else does
(`Trimmed.trimChars_pad`), a word of letters ends where the letters end
(`takeWhile_letters`), and the first separator is the one that was put
there if the part before it has none (`splitOnce_append`,
`splitAll_append`).
-/

namespace Intake.Text

/-! ## Blanks -/

/-- A text with no blank at either end. -/
structure Trimmed (cs : List Char) : Prop where
  front : ∀ c ∈ cs.head?, isBlank c = false
  back : ∀ c ∈ cs.getLast?, isBlank c = false

/-- A text of blanks only. -/
def Blanks (cs : List Char) : Prop := ∀ c ∈ cs, isBlank c = true

instance (cs : List Char) : Decidable (Blanks cs) :=
  List.decidableBAll (fun c => isBlank c = true) cs

section Blanks

variable {blanks blanks' cs : List Char}

theorem trimFront_blanks (h : Blanks blanks) (cs : List Char) :
    trimFront (blanks ++ cs) = trimFront cs :=
  List.dropWhile_append_of_pos h

theorem trimFront_eq_self (h : ∀ c ∈ cs.head?, isBlank c = false) : trimFront cs = cs := by
  cases cs with
  | nil => rfl
  | cons c cs => simp [trimFront, h c rfl]

theorem trimBack_blanks (h : Blanks blanks) (cs : List Char) :
    trimBack (cs ++ blanks) = trimBack cs := by
  have hreverse : ∀ c ∈ blanks.reverse, isBlank c = true := fun c hc => h c (List.mem_reverse.mp hc)
  rw [trimBack, List.reverse_append, List.dropWhile_append_of_pos hreverse, trimBack]

theorem trimBack_eq_self (h : ∀ c ∈ cs.getLast?, isBlank c = false) : trimBack cs = cs := by
  have hkeep : trimFront cs.reverse = cs.reverse := trimFront_eq_self (by simpa using h)
  rw [trimBack, ← trimFront, hkeep, List.reverse_reverse]

/-- A character that is no blank holds what stands before it. -/
theorem trimBack_cons {c : Char} (h : isBlank c = false) (cs : List Char) :
    trimBack (c :: cs) = c :: trimBack cs := by
  rw [trimBack, List.reverse_cons, List.dropWhile_append]
  split
  · next hblank =>
    rw [trimBack, List.isEmpty_iff.mp hblank]
    simp [h]
  · rw [List.reverse_append, trimBack]
    rfl

theorem trimChars_blanks (h : Blanks blanks) : trimChars blanks = [] := by
  have hfront : trimFront blanks = [] := by
    rw [← List.append_nil blanks, trimFront_blanks h]
    rfl
  rw [trimChars, hfront]
  rfl

/-- **Blanks around a text come off, and nothing else.** -/
theorem Trimmed.trimChars_pad (h : Trimmed cs) (hfront : Blanks blanks) (hback : Blanks blanks') :
    trimChars (blanks ++ cs ++ blanks') = cs := by
  cases cs with
  | nil =>
    have hall : Blanks (blanks ++ [] ++ blanks') := by
      intro c hc
      rw [List.append_nil] at hc
      exact (List.mem_append.mp hc).elim (hfront c) (hback c)
    exact trimChars_blanks hall
  | cons c cs =>
    have hhead : trimFront (c :: cs ++ blanks') = c :: cs ++ blanks' := trimFront_eq_self h.front
    rw [List.append_assoc, trimChars, trimFront_blanks hfront, hhead, trimBack_blanks hback,
      trimBack_eq_self h.back]

theorem Trimmed.trimChars_eq (h : Trimmed cs) : trimChars cs = cs := by
  have hnone : Blanks [] := nofun
  have hpad := h.trimChars_pad hnone hnone
  rwa [List.nil_append, List.append_nil] at hpad

/-- What trimming leaves has no blank at either end. -/
theorem trimmed_trimChars (cs : List Char) : Trimmed (trimChars cs) := by
  have hstop : ∀ (cs : List Char), ∀ c ∈ (trimFront cs).head?, isBlank c = false := by
    intro cs c hc
    have hnot := List.head?_dropWhile_not isBlank cs
    rw [show (cs.dropWhile isBlank).head? = some c from hc] at hnot
    exact hnot
  refine ⟨fun c hc => ?_, fun c hc => ?_⟩
  · -- what comes off the back leaves a beginning of what is left of the front
    have hbegins : trimChars cs <+: trimFront cs := by
      rw [← List.reverse_suffix, trimChars, trimBack, List.reverse_reverse]
      exact List.dropWhile_suffix isBlank
    obtain ⟨rest, heq⟩ := hbegins
    apply hstop cs c
    rw [← heq, List.head?_append, Option.mem_def.mp hc]
    rfl
  · rw [trimChars, trimBack, List.getLast?_reverse] at hc
    exact hstop _ c hc

/-- A text without blanks is trimmed. -/
theorem trimmed_of_clean (h : ∀ c ∈ cs, isBlank c = false) : Trimmed cs :=
  ⟨fun c hc => h c (List.mem_of_mem_head? hc), fun c hc => h c (List.mem_of_getLast? hc)⟩

theorem trimChars_eq_self (h : ∀ c ∈ cs, isBlank c = false) : trimChars cs = cs :=
  (trimmed_of_clean h).trimChars_eq

end Blanks

theorem isBlank_of_isDigit {c : Char} (h : c.isDigit = true) : isBlank c = false := by
  have hrange : 0x30 ≤ c.toNat ∧ c.toNat ≤ 0x39 := by
    simpa [Char.isDigit, UInt32.le_iff_toNat_le] using h
  unfold isBlank
  simp only [Bool.or_eq_false_iff, Bool.and_eq_false_iff, decide_eq_false_iff_not,
    beq_eq_false_iff_ne]
  omega

/-! ## Letters -/

theorem isLetter_iff {c : Char} : isLetter c = true ↔
    0x61 ≤ c.toNat ∧ c.toNat ≤ 0x7A ∨ 0x41 ≤ c.toNat ∧ c.toNat ≤ 0x5A := by
  simp [isLetter]

theorem isBlank_of_isLetter {c : Char} (h : isLetter c = true) : isBlank c = false := by
  rw [isLetter_iff] at h
  unfold isBlank
  simp only [Bool.or_eq_false_iff, Bool.and_eq_false_iff, decide_eq_false_iff_not,
    beq_eq_false_iff_ne]
  omega

theorem not_isLetter_of_isBlank {c : Char} (h : isBlank c = true) : isLetter c = false := by
  cases hletter : isLetter c with
  | false => rfl
  | true =>
    rw [isBlank_of_isLetter hletter] at h
    cases h

/-- Only letters become letters. -/
theorem isLetter_of_upperChar {c : Char} (h : isLetter (upperChar c) = true) :
    isLetter c = true := by
  unfold upperChar at h
  split at h
  · next hlower => exact isLetter_iff.mpr (.inl hlower)
  · exact h

/-- **A word of letters ends where the letters end.** -/
theorem takeWhile_letters {word rest : List Char} (h : ∀ c ∈ word, isLetter c = true)
    (hrest : ∀ c ∈ rest.head?, isLetter c = false) :
    (word ++ rest).takeWhile isLetter = word ∧ (word ++ rest).dropWhile isLetter = rest := by
  have hstop : rest.takeWhile isLetter = [] ∧ rest.dropWhile isLetter = rest := by
    cases rest with
    | nil => exact ⟨rfl, rfl⟩
    | cons c rest => simp [hrest c rfl]
  rw [List.takeWhile_append_of_pos h, List.dropWhile_append_of_pos h, hstop.1, hstop.2,
    List.append_nil]
  exact ⟨rfl, rfl⟩

/-! ## Separators -/

section Separators

variable {separator : Char} {cs : List Char}

theorem splitOnce_append (h : separator ∉ cs) (rest : List Char) :
    splitOnce separator (cs ++ separator :: rest) = some (cs, rest) := by
  induction cs with
  | nil => rw [List.nil_append, splitOnce, if_pos rfl]
  | cons c cs ih =>
    obtain ⟨hne, hcs⟩ : separator ≠ c ∧ separator ∉ cs := by simpa using h
    rw [List.cons_append, splitOnce, if_neg (Ne.symm hne), ih hcs]
    rfl

theorem splitOnce_eq_none (h : separator ∉ cs) : splitOnce separator cs = none := by
  induction cs with
  | nil => rfl
  | cons c cs ih =>
    obtain ⟨hne, hcs⟩ : separator ≠ c ∧ separator ∉ cs := by simpa using h
    rw [splitOnce, if_neg (Ne.symm hne), ih hcs]
    rfl

theorem splitAll_eq_singleton (h : separator ∉ cs) : splitAll separator cs = [cs] := by
  induction cs with
  | nil => rfl
  | cons c cs ih =>
    obtain ⟨hne, hcs⟩ : separator ≠ c ∧ separator ∉ cs := by simpa using h
    rw [splitAll, if_neg (Ne.symm hne), ih hcs]

theorem splitAll_append (h : separator ∉ cs) (rest : List Char) :
    splitAll separator (cs ++ separator :: rest) = cs :: splitAll separator rest := by
  induction cs with
  | nil => rw [List.nil_append, splitAll, if_pos rfl]
  | cons c cs ih =>
    obtain ⟨hne, hcs⟩ : separator ≠ c ∧ separator ∉ cs := by simpa using h
    rw [List.cons_append, splitAll, if_neg (Ne.symm hne), ih hcs]

end Separators

end Intake.Text
