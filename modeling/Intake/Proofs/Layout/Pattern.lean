import Intake.Layout.Notation
/-!
# What stands for NULL, and how it is written

The notation of the bytes that stand for NULL is a literal in quotes of
either kind, in which such a quote is written twice, or hexadecimal
digits, two a byte, perhaps with a mark in front (`Denotes Doubled`).

The reader takes the outer quotes off first and pairs the quotes in
between from the left. So it takes more than the notation has: where a
quote is left without a second one it stands for itself
(`Denotes Paired`), and a literal that was never closed is read like any
other if its last quote is the second one of a pair. The reader keeps to
the notation exactly outside of such literals
(`pattern_accepts_iff`).
-/

namespace Intake.Layout

/-! ## Hexadecimal digits -/

/-- A character that writes a number below sixteen, in either case. -/
def HexDigit (n : Nat) (c : Char) : Prop :=
  "0123456789abcdef".toList[n]? = some c ∨ "0123456789ABCDEF".toList[n]? = some c

instance (n : Nat) (c : Char) : Decidable (HexDigit n c) := inferInstanceAs (Decidable (_ ∨ _))

/-- Bytes and the digits that write them, two a byte. -/
inductive Hex : List Char → Bytes → Prop where
  | nil : Hex [] []
  | pair {c d : Char} {m n : Nat} {digits : List Char} {bs : Bytes} (high : HexDigit m c)
      (low : HexDigit n d) (rest : Hex digits bs) :
    Hex (c :: d :: digits) (UInt8.ofNat (16 * m + n) :: bs)

theorem hexValue?_eq_some_iff {c : Char} {n : Nat} :
    Bytes.hexValue? c = some n ↔ HexDigit n c := by
  constructor
  · intro h
    have hrange : c.toNat = 48 + n ∧ n < 10 ∨ c.toNat = 87 + n ∧ 10 ≤ n ∧ n < 16 ∨
        c.toNat = 55 + n ∧ 10 ≤ n ∧ n < 16 := by
      unfold Bytes.hexValue? at h
      dsimp only at h
      split at h
      · cases h
        omega
      split at h
      · cases h
        omega
      split at h
      · cases h
        omega
      · cases h
    have hdigit : ∀ k < 10, HexDigit k (Char.ofNat (48 + k)) := by decide
    have hletter : ∀ k < 16, 10 ≤ k →
        HexDigit k (Char.ofNat (87 + k)) ∧ HexDigit k (Char.ofNat (55 + k)) := by decide
    rw [← Char.ofNat_toNat c]
    rcases hrange with ⟨heq, hn⟩ | ⟨heq, hlow, hn⟩ | ⟨heq, hlow, hn⟩
    · exact heq ▸ hdigit n hn
    · exact heq ▸ (hletter n hn hlow).1
    · exact heq ▸ (hletter n hn hlow).2
  · have hvalue : ∀ alphabet : List Char,
        (∀ k < alphabet.length, alphabet[k]?.bind Bytes.hexValue? = some k) →
        alphabet[n]? = some c → Bytes.hexValue? c = some n := by
      intro alphabet hall hc
      have hn := hall n (List.getElem?_eq_some_iff.mp hc).1
      rwa [hc] at hn
    rintro (h | h)
    · exact hvalue _ (by decide) h
    · exact hvalue _ (by decide) h

/-- **Pairs of digits are read as the bytes that they write**, and nothing
else is read. -/
theorem ofHex?_eq_some_iff {digits : List Char} {bs : Bytes} :
    Bytes.ofHex? digits = some bs ↔ Hex digits bs := by
  constructor
  · intro h
    fun_induction Bytes.ofHex? digits generalizing bs with
    | case1 =>
      cases h
      exact .nil
    | case2 => cases h
    | case3 c d digits m n bs' hrest hlow hhigh ih =>
      cases h
      exact .pair (hexValue?_eq_some_iff.mp hhigh) (hexValue?_eq_some_iff.mp hlow) (ih hrest)
    | case4 => cases h
  · intro h
    induction h with
    | nil => rfl
    | pair high low rest ih =>
      simp only [Bytes.ofHex?, hexValue?_eq_some_iff.mpr high, hexValue?_eq_some_iff.mpr low, ih]

/-- The marks that hexadecimal digits may begin with. -/
def marks : List (List Char) := [[], ['0', 'x'], ['0', 'X']]

/-- Digits are not taken for a mark: the letter of a mark is no digit. -/
theorem Hex.unmarked_eq {digits : List Char} {bs : Bytes} (h : Hex digits bs) :
    unmarked digits = digits := by
  cases h with
  | nil => rfl
  | @pair c d m n _ _ high low rest =>
    have hvalue := hexValue?_eq_some_iff.mpr low
    rw [unmarked.eq_3]
    · rintro rest' heq
      cases heq
      cases hvalue
    · rintro rest' heq
      cases heq
      cases hvalue

/-- Digits are read behind a mark and without one. -/
theorem hex_unmarked_iff {cs : List Char} {bs : Bytes} :
    Hex (unmarked cs) bs ↔ ∃ mark ∈ marks, ∃ digits, cs = mark ++ digits ∧ Hex digits bs := by
  constructor
  · intro h
    unfold unmarked at h
    split at h
    · next digits => exact ⟨['0', 'x'], by decide, digits, rfl, h⟩
    · next digits => exact ⟨['0', 'X'], by decide, digits, rfl, h⟩
    · exact ⟨[], by decide, cs, rfl, h⟩
  · rintro ⟨mark, hmark, digits, rfl, h⟩
    simp only [marks, List.mem_cons, List.not_mem_nil, or_false] at hmark
    rcases hmark with rfl | rfl | rfl
    · rw [List.nil_append, h.unmarked_eq]
      exact h
    · exact h
    · exact h

/-! ## Literals -/

/-- A text with each `quote` in it twice. -/
def double (quote : Char) (text : List Char) : List Char :=
  text.flatMap fun c => if c = quote then [quote, quote] else [c]

/-- The content of a literal as it is to be written: every quote in it
belongs to a pair. -/
def Doubled (quote : Char) (body text : List Char) : Prop := body = double quote text

/-- The content of a literal as it is read: a pair of quotes is one quote,
and a quote without a second one behind it is itself. -/
inductive Paired (quote : Char) : List Char → List Char → Prop where
  | nil : Paired quote [] []
  | plain {c : Char} {body text : List Char} (other : c ≠ quote)
      (rest : Paired quote body text) : Paired quote (c :: body) (c :: text)
  | pair {body text : List Char} (rest : Paired quote body text) :
    Paired quote (quote :: quote :: body) (quote :: text)
  | single {body text : List Char} (alone : body.head? ≠ some quote)
      (rest : Paired quote body text) : Paired quote (quote :: body) (quote :: text)

variable {quote : Char} {body text : List Char}

theorem Paired.undouble_eq (h : Paired quote body text) : undouble quote body = text := by
  induction h with
  | nil => rfl
  | @plain c body text other rest ih =>
    cases body with
    | nil =>
      obtain rfl : [] = text := ih
      rfl
    | cons d body => rw [undouble, if_neg fun h => other h.1, ih]
  | pair rest ih => rw [undouble, if_pos ⟨rfl, rfl⟩, ih]
  | @single body text alone rest ih =>
    cases body with
    | nil =>
      obtain rfl : [] = text := ih
      rfl
    | cons d body => rw [undouble, if_neg fun h => alone (congrArg some h.2), ih]

/-- **The reader pairs quotes from the left.** -/
theorem paired_undouble (quote : Char) (body : List Char) :
    Paired quote body (undouble quote body) := by
  induction body using undouble.induct quote with
  | case1 a b rest h ih =>
    obtain ⟨rfl, rfl⟩ := h
    rw [undouble, if_pos ⟨rfl, rfl⟩]
    exact .pair ih
  | case2 a b rest h ih =>
    rw [undouble, if_neg h]
    by_cases ha : a = quote
    · subst ha
      exact .single (fun heq => h ⟨rfl, Option.some.inj heq⟩) ih
    · exact .plain ha ih
  | case3 cs h =>
    match cs, h with
    | [], _ => exact .nil
    | [a], _ =>
      by_cases ha : a = quote
      · subst ha
        exact .single nofun .nil
      · exact .plain ha .nil
    | a :: b :: rest, h => exact absurd rfl (h a b rest)

/-- Doubled quotes are paired. -/
theorem Doubled.paired (h : Doubled quote body text) : Paired quote body text := by
  subst h
  induction text with
  | nil => exact .nil
  | cons c text ih =>
    rw [double, List.flatMap_cons]
    split
    · next hc =>
      subst hc
      exact .pair ih
    · next hc => exact .plain hc ih

/-- In doubled content there is an even number of quotes. -/
theorem Doubled.count_eq (h : Doubled quote body text) :
    body.count quote = 2 * text.count quote := by
  subst h
  induction text with
  | nil => rfl
  | cons c text ih =>
    rw [double] at ih ⊢
    rw [List.flatMap_cons, List.count_append, ih, List.count_cons]
    split
    · next hc => simp [hc]; omega
    · next hc => simp [hc]

theorem literal_eq_ok_iff {cs : List Char} {bs : Bytes} :
    literal quote cs = .ok bs ↔ ∃ body text, cs = body ++ [quote] ∧ Paired quote body text ∧
      bs = Bytes.ofString (String.ofList text) := by
  unfold literal
  constructor
  · intro h
    split at h
    · next hlast =>
      obtain ⟨body, rfl⟩ := List.getLast?_eq_some_iff.mp hlast
      rw [List.dropLast_concat] at h
      cases h
      exact ⟨body, _, rfl, paired_undouble quote body, rfl⟩
    · cases h
  · rintro ⟨body, text, rfl, hpaired, rfl⟩
    rw [if_pos List.getLast?_concat, List.dropLast_concat, hpaired.undouble_eq]

/-! ## What is read -/

/-- The notation of some bytes: a literal with `content` between its
quotes, or hexadecimal digits. -/
inductive Denotes (content : Char → List Char → List Char → Prop) : List Char → Bytes → Prop where
  | literal {quote : Char} {body text : List Char} (kind : quote = '\'' ∨ quote = '"')
      (inner : content quote body text) :
    Denotes content (quote :: (body ++ [quote])) (Bytes.ofString (String.ofList text))
  | hex {mark digits : List Char} {bs : Bytes} (marked : mark ∈ marks)
      (some : mark ++ digits ≠ []) (pairs : Hex digits bs) : Denotes content (mark ++ digits) bs

/-- A literal in whose content a quote is left without a second one. -/
def Stray (cs : List Char) : Prop :=
  ∃ quote body, (quote = '\'' ∨ quote = '"') ∧ cs = quote :: (body ++ [quote]) ∧
    ∀ text, ¬ Doubled quote body text

variable {content : Char → List Char → List Char → Prop} {cs : List Char} {bs : Bytes}

/-- What begins with a quote is no number. -/
theorem Denotes.literal_of_quote (h : Denotes content (quote :: cs) bs)
    (hquote : quote = '\'' ∨ quote = '"') : ∃ body text, cs = body ++ [quote] ∧
      content quote body text ∧ bs = Bytes.ofString (String.ofList text) := by
  generalize hall : quote :: cs = all at h
  cases h with
  | literal kind inner =>
    cases hall
    exact ⟨_, _, rfl, inner, rfl⟩
  | @hex mark digits _ marked some pairs =>
    exfalso
    simp only [marks, List.mem_cons, List.not_mem_nil, or_false] at marked
    rcases marked with rfl | rfl | rfl
    · cases pairs with
      | nil => cases hall
      | pair high low rest =>
        cases hall
        rw [← hexValue?_eq_some_iff] at high
        rcases hquote with rfl | rfl <;> cases high
    · cases hall
      rcases hquote with h | h <;> cases h
    · cases hall
      rcases hquote with h | h <;> cases h

/-- What does not begin with a quote is read as a number. -/
theorem pattern_eq_of_not_quote (hsome : cs ≠ []) (hquote : cs.head? ≠ some '\'')
    (hquote' : cs.head? ≠ some '"') : pattern cs = .ok bs ↔ Hex (unmarked cs) bs := by
  rw [← ofHex?_eq_some_iff, pattern.eq_def]
  split
  · exact absurd rfl hsome
  · exact absurd rfl hquote
  · exact absurd rfl hquote'
  · cases Bytes.ofHex? (unmarked cs) with
    | none => exact iff_of_false nofun nofun
    | some bs' => simp

/-- **What is read for NULL.** By cases on what the text begins with: a quote
of either kind, or something else. -/
theorem pattern_eq_ok_iff : pattern cs = .ok bs ↔ Denotes Paired cs bs := by
  have hliteral : ∀ {quote : Char} {cs : List Char}, (quote = '\'' ∨ quote = '"') →
      (literal quote cs = .ok bs ↔ Denotes Paired (quote :: cs) bs) := by
    intro quote cs hquote
    rw [literal_eq_ok_iff]
    constructor
    · rintro ⟨body, text, rfl, hpaired, rfl⟩
      exact .literal hquote hpaired
    · intro h
      exact h.literal_of_quote hquote
  by_cases hsome : cs = []
  · subst hsome
    refine iff_of_false nofun fun h => ?_
    generalize hnil : ([] : List Char) = cs at h
    cases h with
    | literal => cases hnil
    | hex marked some => exact some hnil.symm
  by_cases hquote : cs.head? = some '\''
  · obtain ⟨cs, rfl⟩ := List.head?_eq_some_iff.mp hquote
    exact hliteral (.inl rfl)
  by_cases hquote' : cs.head? = some '"'
  · obtain ⟨cs, rfl⟩ := List.head?_eq_some_iff.mp hquote'
    exact hliteral (.inr rfl)
  rw [pattern_eq_of_not_quote hsome hquote hquote', hex_unmarked_iff]
  constructor
  · rintro ⟨mark, hmark, digits, rfl, hpairs⟩
    exact .hex hmark hsome hpairs
  · intro h
    cases h with
    | literal kind inner =>
      rcases kind with rfl | rfl
      · exact absurd rfl hquote
      · exact absurd rfl hquote'
    | hex marked some pairs => exact ⟨_, marked, _, rfl, pairs⟩

/-- All that has the notation is read. -/
theorem Denotes.paired (h : Denotes Doubled cs bs) : Denotes Paired cs bs := by
  cases h with
  | literal kind inner => exact .literal kind inner.paired
  | hex marked some pairs => exact .hex marked some pairs

/-- What is read has the notation, unless a quote in it is left over. -/
theorem Denotes.doubled (h : Denotes Paired cs bs) (hstray : ¬ Stray cs) :
    Denotes Doubled cs bs := by
  cases h with
  | @literal quote body text kind inner =>
    obtain ⟨text', hdoubled⟩ : ∃ text, Doubled quote body text :=
      Classical.byContradiction fun hnone =>
        hstray ⟨quote, body, kind, rfl, not_exists.mp hnone⟩
    -- there is only one text that the quotes pair to
    obtain rfl : text' = text := hdoubled.paired.undouble_eq.symm.trans inner.undouble_eq
    exact .literal kind hdoubled
  | hex marked some pairs => exact .hex marked some pairs

/-- A literal with a quote left over has no place in the notation. -/
theorem Stray.not_denotes (h : Stray cs) : ¬ Denotes Doubled cs bs := by
  obtain ⟨quote, body, hquote, rfl, hnot⟩ := h
  intro hdenotes
  obtain ⟨body', text, heq, hdoubled, -⟩ := hdenotes.literal_of_quote hquote
  obtain rfl : body = body' := List.append_cancel_right heq
  exact hnot text hdoubled

/-- Yet it is read. -/
theorem Stray.read (h : Stray cs) : ∃ bs, pattern cs = .ok bs := by
  obtain ⟨quote, body, hquote, rfl, -⟩ := h
  exact ⟨_, pattern_eq_ok_iff.mpr (.literal hquote (paired_undouble quote body))⟩

/-- **Which patterns are accepted, and as what.** Any literal is, its quotes
paired from the left, and any even number of hexadecimal digits. This is
the notation exactly where no literal has a quote left over. -/
theorem pattern_accepts_iff (cs : List Char) :
    (∀ bs, pattern cs = .ok bs ↔ Denotes Paired cs bs) ∧
      ((∀ bs, pattern cs = .ok bs ↔ Denotes Doubled cs bs) ↔ ¬ Stray cs) := by
  refine ⟨fun bs => pattern_eq_ok_iff, fun hagree hstray => ?_, fun hstray bs => ?_⟩
  · obtain ⟨bs, hread⟩ := hstray.read
    exact hstray.not_denotes ((hagree bs).mp hread)
  · rw [pattern_eq_ok_iff]
    exact ⟨fun h => h.doubled hstray, Denotes.paired⟩

/-- A literal whose last quote is the second of a pair, so that nothing
closes it, is read as one of a letter and a quote. -/
theorem unclosed_accepted :
    pattern ['\'', 'x', '\'', '\''] = .ok [0x78, 0x27] ∧
      ∀ bs, ¬ Denotes Doubled ['\'', 'x', '\'', '\''] bs := by
  refine ⟨by rfl, fun bs => Stray.not_denotes ⟨'\'', ['x', '\''], .inl rfl, rfl, fun text h => ?_⟩⟩
  have hcount := h.count_eq
  rw [show (['x', '\''] : List Char).count '\'' = 1 from rfl] at hcount
  omega

end Intake.Layout
