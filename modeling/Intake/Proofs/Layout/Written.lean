import Intake.Proofs.Layout.Pattern
import Intake.Proofs.Layout.Safe
import Intake.Proofs.Numeral.Integer
import Intake.Proofs.Text.Pieces
/-!
# Fields that are written and read back

A field of a fixed-width layout has many notations. Its kind has several
names, in any letter case. Its place is an offset and a length, a first
and a last byte, or a length alone where it starts at the place after the
field before it. What stands for NULL is a literal or a number
(`FieldSpec.Written`).

Whichever notation each field of a list is given, the list is read back as
the fields themselves, so that it leads to the layout that the fields
lead to, or to the same complaint (`ofNotation_written`). That holds for
all fields of the lengths that their kinds are meant to have, as far as
places can be addressed (`FieldSpec.Legal`), and all of these have a
notation. A list that is read is not always one that was so written: see
`pattern_accepts_iff`.
-/

namespace Intake

/-- The names of a kind, each of one word or two. A name that implies
another length may be used as well, since the length is always given. -/
def FieldKind.names : FieldKind → List (List String)
  | .char => [["CHAR"], ["CHARACTER"]]
  | .varchar => [["VARCHAR"]]
  | .integer => [["INTEGER"], ["INT"], ["SMALLINT"], ["BIGINT"]]
  | .unsigned => [["UNSIGNED"], ["UNSIGNED", "INTEGER"], ["UNSIGNED", "INT"],
      ["UNSIGNED", "SMALLINT"], ["UNSIGNED", "BIGINT"]]
  | .float => [["FLOAT"], ["REAL"], ["DOUBLE"]]

/-- A field that has a notation: a length that its kind is meant to have,
and a place that can be addressed. -/
structure FieldSpec.Legal (f : FieldSpec) : Prop where
  some : 0 < f.length
  sized : f.kind.Sized f.length
  reach : f.stop ≤ Layout.maxPlace

namespace Layout

open Nat (toDigits)
open Text

/-! ## Notations -/

/-- A word in any letter case. -/
def Cased (word : String) (cs : List Char) : Prop := upper (String.ofList cs) = word

instance (word : String) (cs : List Char) : Decidable (Cased word cs) :=
  inferInstanceAs (Decidable (upper (String.ofList cs) = word))

/-- The name of a kind in any letter case, with blanks between its words. -/
inductive Named (kind : FieldKind) : List Char → Prop where
  | one {word : String} {cs : List Char} (name : [word] ∈ kind.names) (cased : Cased word cs) :
    Named kind cs
  | two {word word' : String} {cs gap cs' : List Char} (name : [word, word'] ∈ kind.names)
      (cased : Cased word cs) (blanks : Blanks gap) (apart : gap ≠ []) (cased' : Cased word' cs') :
    Named kind (cs ++ (gap ++ cs'))

/-- What stands between the parentheses; `next` is the place after the
field before. -/
inductive Placed (next offset length : Nat) : List Char → Prop where
  | extent : Placed next offset length (toDigits 10 offset ++ '+' :: toDigits 10 length)
  | bounds : Placed next offset length
      (toDigits 10 (offset + 1) ++ ':' :: toDigits 10 (offset + length))
  | behind (adjacent : offset = next) : Placed next offset length (toDigits 10 length)

/-- What stands behind the parentheses. -/
inductive Ended : Option Bytes → List Char → Prop where
  | bare : Ended none []
  | nullIf {before word after cs : List Char} {bs : Bytes} (blanks : Blanks before)
      (cased : Cased "NULLIF" word) (blanks' : Blanks after) (apart : after ≠ [])
      (pattern : Denotes Doubled cs bs) : Ended (some bs) (before ++ (word ++ (after ++ cs)))

/-- A notation of a field behind the place `next`. -/
inductive Noted (next : Nat) (f : FieldSpec) (spec : String) : Prop where
  | intro {name place ending : List Char}
      (text : spec.toList = name ++ '(' :: (place ++ ')' :: ending)) (named : Named f.kind name)
      (placed : Placed next f.offset f.length place) (ended : Ended f.nullIf ending)

/-- Notations of fields, of which the first is behind the place `next`. -/
inductive Written : Nat → List FieldSpec → List String → Prop where
  | nil {next : Nat} : Written next [] []
  | cons {next : Nat} {f : FieldSpec} {fields : List FieldSpec} {spec : String}
      {specs : List String} (first : Noted next f spec) (rest : Written f.stop fields specs) :
    Written next (f :: fields) (spec :: specs)

/-! ## Words -/

section Words

variable {word : String} {cs rest blanks : List Char}

/-- Letters are a word of letters in another case. -/
theorem Cased.letters (h : Cased word cs) (hword : word.toList.all isLetter = true) :
    ∀ c ∈ cs, isLetter c = true := by
  intro c hc
  apply isLetter_of_upperChar
  apply List.all_eq_true.mp hword
  rw [← h, upper, String.toList_ofList, String.toList_ofList]
  exact List.mem_map_of_mem hc

theorem Cased.ne_nil (h : Cased word cs) (hword : word ≠ "") : cs ≠ [] := by
  rintro rfl
  exact hword h.symm

/-- A word is taken off the front of what is not a letter. -/
theorem takeWord_append (hword : ∀ c ∈ cs, isLetter c = true)
    (hfront : ∀ c ∈ (cs ++ rest).head?, isBlank c = false)
    (hrest : ∀ c ∈ rest.head?, isLetter c = false) :
    takeWord (cs ++ rest) = (cs, trimFront rest) := by
  obtain ⟨htake, hdrop⟩ := takeWhile_letters hword hrest
  rw [takeWord, trimFront_eq_self hfront, htake, hdrop]

/-- What begins with a word of letters begins with no blank. -/
theorem head_append (hsome : cs ≠ []) (hword : ∀ c ∈ cs, isLetter c = true) (rest : List Char) :
    ∀ c ∈ (cs ++ rest).head?, isBlank c = false := by
  obtain ⟨c, cs, rfl⟩ := List.exists_cons_of_ne_nil hsome
  intro _ hc
  cases hc
  exact isBlank_of_isLetter (hword c List.mem_cons_self)

theorem head_blanks (h : Blanks blanks) (hsome : blanks ≠ []) (rest : List Char) :
    ∀ c ∈ (blanks ++ rest).head?, isLetter c = false := by
  obtain ⟨c, blanks, rfl⟩ := List.exists_cons_of_ne_nil hsome
  intro _ hc
  cases hc
  exact not_isLetter_of_isBlank (h c List.mem_cons_self)

end Words

/-! ## Types -/

/-- What the reader needs to know of a word in a name. -/
structure IsWord (word : String) : Prop where
  some : word ≠ ""
  letters : word.toList.all isLetter = true

theorem names_one {kind : FieldKind} {word : String} (h : [word] ∈ kind.names) :
    IsWord word ∧ ∃ implied, kindOf word = .ok (kind, implied) := by
  cases kind <;> simp only [FieldKind.names, List.mem_cons, List.cons.injEq, List.not_mem_nil,
    and_true, or_false, reduceCtorEq, and_false] at h
  · rcases h with rfl | rfl <;> exact ⟨⟨by decide, by decide⟩, _, rfl⟩
  · subst h
    exact ⟨⟨by decide, by decide⟩, _, rfl⟩
  · rcases h with rfl | rfl | rfl | rfl <;> exact ⟨⟨by decide, by decide⟩, _, rfl⟩
  · subst h
    exact ⟨⟨by decide, by decide⟩, _, rfl⟩
  · rcases h with rfl | rfl | rfl <;> exact ⟨⟨by decide, by decide⟩, _, rfl⟩

/-- A name of two words begins with the one that says that there is no
sign, and the other is none that could follow it otherwise. -/
theorem names_two {kind : FieldKind} {word word' : String} (h : [word, word'] ∈ kind.names) :
    word = "UNSIGNED" ∧ IsWord word' ∧ word' ≠ "NULLIF" ∧
      ∃ implied, kindOf ("UNSIGNED " ++ word') = .ok (kind, implied) := by
  cases kind <;> simp only [FieldKind.names, List.mem_cons, List.cons.injEq, List.not_mem_nil,
    and_true, or_false, false_or, reduceCtorEq, and_false] at h
  rcases h with ⟨rfl, rfl⟩ | ⟨rfl, rfl⟩ | ⟨rfl, rfl⟩ | ⟨rfl, rfl⟩ <;>
    exact ⟨rfl, ⟨by decide, by decide⟩, by decide, _, rfl⟩

/-- **The name of a kind is read as that kind**, up to the parenthesis that
follows it. -/
theorem takeType_named {kind : FieldKind} {name : List Char} (h : Named kind name)
    (rest : List Char) : ∃ word implied,
      takeType (name ++ '(' :: rest) = .ok (word, '(' :: rest) ∧
        kindOf word = .ok (kind, implied) := by
  have hopen : ∀ {cs : List Char}, (∀ c ∈ cs, isLetter c = true) → cs ≠ [] →
      takeWord (cs ++ '(' :: rest) = (cs, '(' :: rest) := by
    intro cs hletters hsome
    refine takeWord_append hletters (head_append hsome hletters _) fun c hc => ?_
    cases hc
    rfl
  cases h with
  | @one word _ name cased =>
    obtain ⟨hword, implied, hkind⟩ := names_one name
    have hsome := cased.ne_nil hword.some
    refine ⟨word, implied, ?_, hkind⟩
    rw [takeType, hopen (cased.letters hword.letters) hsome]
    dsimp only
    rw [if_neg (by simpa using hsome), show wordOf _ = word from cased]
    split
    · next hunsigned =>
      -- nothing but a parenthesis follows, so there is no second word
      rw [hunsigned]
      rfl
    · rfl
  | @two word word' cs gap cs' name cased blanks apart cased' =>
    obtain ⟨rfl, hword', hnot, implied, hkind⟩ := names_two name
    have hletters := cased.letters (by decide)
    have hsome := cased.ne_nil (by decide)
    have hsome' := cased'.ne_nil hword'.some
    have hletters' := cased'.letters hword'.letters
    have hfirst : takeWord (cs ++ (gap ++ (cs' ++ '(' :: rest))) = (cs, cs' ++ '(' :: rest) := by
      rw [takeWord_append hletters (head_append hsome hletters _) (head_blanks blanks apart _),
        trimFront_blanks blanks, trimFront_eq_self (head_append hsome' hletters' _)]
    refine ⟨_, implied, ?_, hkind⟩
    rw [List.append_assoc, List.append_assoc, takeType, hfirst]
    dsimp only
    rw [if_neg (by simpa using hsome), if_pos (show wordOf cs = "UNSIGNED" from cased),
      hopen hletters' hsome']
    dsimp only
    rw [show wordOf cs' = word' from cased', if_neg (by simp [hsome', hnot])]

/-- A name does not begin with a blank. -/
theorem Named.front {kind : FieldKind} {name : List Char} (h : Named kind name)
    (rest : List Char) : ∀ c ∈ (name ++ rest).head?, isBlank c = false := by
  cases h with
  | one name cased =>
    obtain ⟨hword, -⟩ := names_one name
    exact head_append (cased.ne_nil hword.some) (cased.letters hword.letters) rest
  | two name cased =>
    obtain ⟨rfl, -⟩ := names_two name
    rw [List.append_assoc]
    exact head_append (cased.ne_nil (by decide)) (cased.letters (by decide)) _

/-! ## Places -/

theorem not_mem_toDigits {c : Char} (h : c.isDigit = false) (n : Nat) : c ∉ toDigits 10 n := by
  intro hc
  rw [Nat.isDigit_of_mem_toDigits (by decide) (by decide) hc] at h
  cases h

theorem number_toDigits {n : Nat} (h : n ≤ maxPlace) : number (toDigits 10 n) = .ok n := by
  have hclean : trimChars (toDigits 10 n) = toDigits 10 n := trimChars_eq_self fun c hc =>
    isBlank_of_isDigit (Nat.isDigit_of_mem_toDigits (by decide) (by decide) hc)
  rw [number, hclean, Numeral.count?_toDigits h]

/-- **Each notation of a place is read as that place.** The last byte of a
field can be counted from 1, since it is one that can be addressed. -/
theorem place_placed {next offset length : Nat} {cs : List Char}
    (h : Placed next offset length cs) (hsome : 0 < length)
    (hreach : offset + length ≤ maxPlace) : place next cs = .ok (offset, length) := by
  cases h with
  | extent =>
    have hcolon : ':' ∉ toDigits 10 offset ++ '+' :: toDigits 10 length := by
      simp [not_mem_toDigits (c := ':') rfl]
    rw [place, splitOnce_eq_none hcolon, splitOnce_append (not_mem_toDigits rfl _)]
    dsimp only
    rw [number_toDigits (by omega), number_toDigits (by omega)]
  | bounds =>
    rw [place, splitOnce_append (not_mem_toDigits rfl _)]
    dsimp only
    rw [number_toDigits (by omega), number_toDigits hreach]
    dsimp only
    rw [if_neg (by omega), Nat.add_sub_cancel,
      show offset + length - (offset + 1) + 1 = length by omega]
  | behind adjacent =>
    rw [place, splitOnce_eq_none (not_mem_toDigits rfl _),
      splitOnce_eq_none (not_mem_toDigits rfl _)]
    dsimp only
    rw [number_toDigits (by omega), adjacent]
    rfl

/-- No notation of a place has a parenthesis in it. -/
theorem Placed.not_mem {next offset length : Nat} {cs : List Char}
    (h : Placed next offset length cs) : ')' ∉ cs := by
  have hdigits : ∀ n, ')' ∉ toDigits 10 n := not_mem_toDigits rfl
  cases h <;> simp [hdigits]

/-- The length of a field that has a notation passes the check. -/
theorem checkLength_of_legal {f : FieldSpec} (h : f.Legal) :
    checkLength f.kind f.offset f.length = .ok () := by
  have hwidth : ∀ {widths : List Nat} {message : String}, f.length ∈ widths →
      (if widths.contains f.length then Except.ok () else .error message) = .ok () :=
    fun hmem => if_pos (List.contains_iff_mem.mpr hmem)
  have hsized := h.sized
  have hreach : ¬ maxPlace < f.offset + f.length := Nat.not_lt.mpr h.reach
  unfold checkLength
  rw [if_neg (Nat.ne_of_gt h.some), if_neg hreach]
  generalize f.kind = kind at hsized
  cases kind with
  | char => rfl
  | varchar => rfl
  | integer => exact hwidth hsized
  | unsigned => exact hwidth hsized
  | float => exact hwidth hsized

/-! ## What stands for NULL -/

theorem HexDigit.clean {n : Nat} {c : Char} (h : HexDigit n c) : isBlank c = false := by
  have hclean : ∀ (alphabet : List Char), (alphabet.all fun c => !isBlank c) = true →
      alphabet[n]? = some c → isBlank c = false := by
    intro alphabet hall hc
    simpa using List.all_eq_true.mp hall c (List.mem_of_getElem? hc)
  rcases h with h | h
  · exact hclean _ (by decide) h
  · exact hclean _ (by decide) h

theorem Hex.clean {digits : List Char} {bs : Bytes} (h : Hex digits bs) :
    ∀ c ∈ digits, isBlank c = false := by
  induction h with
  | nil => exact fun c hc => absurd hc List.not_mem_nil
  | pair high low rest ih =>
    exact List.forall_mem_cons.mpr ⟨high.clean, List.forall_mem_cons.mpr ⟨low.clean, ih⟩⟩

/-- A pattern has no blank at either end, whatever is between its quotes. -/
theorem Denotes.trimmed {content : Char → List Char → List Char → Prop} {cs : List Char}
    {bs : Bytes} (h : Denotes content cs bs) : Trimmed cs := by
  cases h with
  | @literal quote body text kind inner =>
    have hquote : isBlank quote = false := by rcases kind with rfl | rfl <;> decide
    refine ⟨fun c hc => ?_, fun c hc => ?_⟩
    · cases hc
      exact hquote
    · rw [← List.cons_append, List.getLast?_concat] at hc
      cases hc
      exact hquote
  | hex marked some pairs =>
    apply trimmed_of_clean
    intro c hc
    rcases List.mem_append.mp hc with hc | hc
    · have hmarks : ∀ mark ∈ marks, mark.any isBlank = false := by decide
      simpa using List.any_eq_false.mp (hmarks _ marked) c hc
    · exact pairs.clean c hc

theorem Denotes.ne_nil {content : Char → List Char → List Char → Prop} {cs : List Char}
    {bs : Bytes} (h : Denotes content cs bs) : cs ≠ [] := by
  cases h with
  | literal => exact List.cons_ne_nil _ _
  | hex marked some pairs => exact some

/-- **What stands for NULL is read as that**, behind the parentheses. -/
theorem nullIf_ended {null : Option Bytes} {ending : List Char} (h : Ended null ending) :
    nullIf (trimFront ending) = .ok null := by
  cases h with
  | bare => rfl
  | @nullIf before word after cs bs blanks cased blanks' apart pattern =>
    have hletters := cased.letters (by decide)
    have hsome := cased.ne_nil (by decide)
    have hfront : trimFront (before ++ (word ++ (after ++ cs))) = word ++ (after ++ cs) := by
      rw [trimFront_blanks blanks, trimFront_eq_self (head_append hsome hletters _)]
    have htake : takeWord (word ++ (after ++ cs)) = (word, cs) := by
      rw [takeWord_append hletters (head_append hsome hletters _) (head_blanks blanks' apart _),
        trimFront_blanks blanks', trimFront_eq_self pattern.trimmed.front]
    rw [hfront, Layout.nullIf, if_neg (by simp [hsome]), htake]
    dsimp only
    rw [if_pos (show wordOf word = "NULLIF" from cased), pattern.trimmed.trimChars_eq,
      pattern_eq_ok_iff.mpr pattern.paired]
    rfl

/-- The last character of a notation is a parenthesis, or the last one of a
pattern. -/
theorem Ended.back {null : Option Bytes} {ending : List Char} (h : Ended null ending) :
    ∀ c ∈ (')' :: ending).getLast?, isBlank c = false := by
  intro c hc
  cases h with
  | bare =>
    cases hc
    decide
  | @nullIf before word after cs bs blanks cased blanks' apart pattern =>
    have hlast : (')' :: (before ++ (word ++ (after ++ cs)))).getLast? = cs.getLast? := by
      rw [← List.append_assoc word, ← List.append_assoc before, ← List.cons_append,
        List.getLast?_append, Option.or_of_isSome (by simpa using pattern.ne_nil)]
    rw [hlast] at hc
    exact pattern.trimmed.back c hc

/-! ## Whole notations -/

/-- **A notation of a field is read as the field.** -/
theorem readField_noted {next : Nat} {f : FieldSpec} {spec : String} (h : Noted next f spec)
    (legal : f.Legal) : readField next spec = .ok f := by
  obtain @⟨name, place, ending, text, named, placed, ended⟩ := h
  have htrim : trimChars (name ++ '(' :: (place ++ ')' :: ending))
      = name ++ '(' :: (place ++ ')' :: ending) := by
    refine Trimmed.trimChars_eq ⟨named.front _, fun c hc => ended.back c ?_⟩
    rw [← List.cons_append, ← List.append_assoc, List.getLast?_append,
      Option.or_of_isSome (by simp)] at hc
    exact hc
  obtain ⟨word, implied, htype, hkind⟩ := takeType_named named (place ++ ')' :: ending)
  have hplace : takePlace next implied ('(' :: (place ++ ')' :: ending))
      = .ok ((f.offset, f.length), trimFront ending) := by
    rw [takePlace, splitOnce_append placed.not_mem]
    dsimp only
    rw [place_placed placed legal.some legal.reach]
    rfl
  rw [readField, text, htrim, htype]
  dsimp only
  rw [hkind]
  dsimp only
  rw [hplace]
  dsimp only
  rw [checkLength_of_legal legal]
  dsimp only
  rw [nullIf_ended ended]
  rfl

/-- **Notations of fields are read as the fields**, each behind the place
that the one before it was read to. -/
theorem readFields_written {next : Nat} {fields : List FieldSpec} {specs : List String}
    (h : Written next fields specs) (legal : ∀ f ∈ fields, f.Legal) (column : Nat) :
    readFields column next specs = .ok fields := by
  induction h generalizing column with
  | nil => rfl
  | cons first rest ih =>
    obtain ⟨hfirst, hrest⟩ := List.forall_mem_cons.mp legal
    rw [readFields, readField_noted first hfirst]
    dsimp only
    rw [ih hrest]
    rfl

/-! ## Every field has a notation -/

theorem exists_hex (bs : Bytes) : ∃ digits, Hex digits bs := by
  induction bs with
  | nil => exact ⟨[], .nil⟩
  | cons b bs ih =>
    obtain ⟨digits, hdigits⟩ := ih
    have hdigit : ∀ n < 16, HexDigit n (Bytes.hexDigit n) := by decide
    have hb := b.toNat_lt
    have hpair := Hex.pair (hdigit (b.toNat / 16) (by omega))
      (hdigit (b.toNat % 16) (Nat.mod_lt _ (by decide))) hdigits
    rw [Nat.div_add_mod, UInt8.ofNat_toNat] at hpair
    exact ⟨_, hpair⟩

theorem exists_ended (null : Option Bytes) : ∃ ending, Ended null ending := by
  cases null with
  | none => exact ⟨[], .bare⟩
  | some bs =>
    obtain ⟨digits, hdigits⟩ := exists_hex bs
    have hblank : Blanks [' '] := by decide
    have hword : Cased "NULLIF" "NULLIF".toList := by decide
    have hmark : ['0', 'x'] ∈ marks := by decide
    have hpattern : Denotes Doubled (['0', 'x'] ++ digits) bs :=
      .hex hmark (List.cons_ne_nil _ _) hdigits
    exact ⟨_, .nullIf hblank hword hblank (List.cons_ne_nil _ _) hpattern⟩

theorem exists_noted (next : Nat) (f : FieldSpec) : ∃ spec, Noted next f spec := by
  -- the first name of each kind is one word
  obtain ⟨word, hname, hcased⟩ : ∃ word, [word] ∈ f.kind.names ∧ Cased word word.toList := by
    cases f.kind <;> exact ⟨_, List.mem_cons_self, by decide⟩
  obtain ⟨ending, hended⟩ := exists_ended f.nullIf
  exact ⟨String.ofList _, .intro String.toList_ofList (.one hname hcased) .extent hended⟩

theorem exists_written (next : Nat) (fields : List FieldSpec) :
    ∃ specs, Written next fields specs := by
  induction fields generalizing next with
  | nil => exact ⟨[], .nil⟩
  | cons f fields ih =>
    obtain ⟨spec, hfirst⟩ := exists_noted next f
    obtain ⟨specs, hrest⟩ := ih f.stop
    exact ⟨spec :: specs, .cons hfirst hrest⟩

/-- **Fields that are written lead to the layout that they lead to**, in
whichever of their notations, with any length of records, or to the same
complaint. Every list of fields of the right lengths can be written. -/
theorem ofNotation_written {fields : List FieldSpec} (legal : ∀ f ∈ fields, f.Legal) :
    (∃ specs, Written 0 fields specs) ∧
      ∀ specs stride, Written 0 fields specs →
        ofNotation specs stride = ofFields fields stride := by
  refine ⟨exists_written 0 fields, fun specs stride hwritten => ?_⟩
  rw [ofNotation, readFields_written hwritten legal 1]

/-- Three fields, of which the last ends at the greatest place there is. -/
def farthest : List FieldSpec :=
  [⟨.char, 0, 4, some [0x4E, 0x27]⟩, ⟨.unsigned, 4, 2, some [0xFF, 0x0A]⟩,
    ⟨.varchar, 18446744073709551614, 1, none⟩]

/-- Each in a notation of its own. -/
theorem ofNotation_written_farthest :
    (∀ f ∈ farthest, f.Legal) ∧
      Written 0 farthest ["cHaR(4) NullIf 'N'''", "Unsigned SMALLINT(4+2)NULLIF 0XfF0a",
        "varchar(18446744073709551615:18446744073709551615)"] ∧
      ofNotation ["cHaR(4) NullIf 'N'''", "Unsigned SMALLINT(4+2)NULLIF 0XfF0a",
        "varchar(18446744073709551615:18446744073709551615)"] none = ofFields farthest none := by
  have legal : ∀ f ∈ farthest, f.Legal := by
    simp only [farthest, List.forall_mem_cons, List.not_mem_nil, false_implies, implies_true,
      and_true]
    exact ⟨⟨by decide, trivial, by decide⟩,
      ⟨by decide, show 2 ∈ [1, 2, 4, 8] by decide, by decide⟩, ⟨by decide, trivial, by decide⟩⟩
  have written : Written 0 farthest ["cHaR(4) NullIf 'N'''",
      "Unsigned SMALLINT(4+2)NULLIF 0XfF0a",
      "varchar(18446744073709551615:18446744073709551615)"] := by
    refine .cons ?_ (.cons ?_ (.cons ?_ .nil))
    · have hname : ["CHAR"] ∈ FieldKind.char.names := by decide
      have hnamed : Named .char "cHaR".toList := .one hname (by decide)
      have hbytes : Bytes.ofString (String.ofList ['N', '\'']) = [0x4E, 0x27] := by rfl
      have hdoubled : Doubled '\'' ['N', '\'', '\''] ['N', '\''] := rfl
      have hpattern := Denotes.literal (.inl rfl) hdoubled
      rw [hbytes] at hpattern
      have hblank : Blanks [' '] := by decide
      have hword : Cased "NULLIF" "NullIf".toList := by decide
      exact .intro (by decide) hnamed (.behind rfl)
        (.nullIf hblank hword hblank (List.cons_ne_nil _ _) hpattern)
    · have hname : ["UNSIGNED", "SMALLINT"] ∈ FieldKind.unsigned.names := by decide
      have hblank : Blanks [' '] := by decide
      have hnamed : Named .unsigned ("Unsigned".toList ++ ([' '] ++ "SMALLINT".toList)) :=
        .two hname (by decide) hblank (List.cons_ne_nil _ _) (by decide)
      have hmark : ['0', 'X'] ∈ marks := by decide
      have hdigits : Hex ['f', 'F', '0', 'a'] [0xFF, 0x0A] :=
        .pair (m := 15) (n := 15) (by decide) (by decide)
          (.pair (m := 0) (n := 10) (by decide) (by decide) .nil)
      have hpattern : Denotes Doubled (['0', 'X'] ++ ['f', 'F', '0', 'a']) [0xFF, 0x0A] :=
        .hex hmark (List.cons_ne_nil _ _) hdigits
      have hnone : Blanks [] := nofun
      have hword : Cased "NULLIF" "NULLIF".toList := by decide
      exact .intro (by decide) hnamed .extent
        (.nullIf hnone hword hblank (List.cons_ne_nil _ _) hpattern)
    · have hname : ["VARCHAR"] ∈ FieldKind.varchar.names := by decide
      have hnamed : Named .varchar "varchar".toList := .one hname (by decide)
      exact .intro (by decide) hnamed .bounds .bare
  exact ⟨legal, written, (ofNotation_written legal).2 _ none written⟩

end Layout
end Intake
