import Intake.CommandLine.Control
import Intake.Proofs.Text.Pieces
/-!
# Control files that are written and read back

A control file is lines: pairs, comments and lines with nothing on them,
each indented by any blanks and ended in one of two ways. A pair is a key
and a value in quotation marks of one of two kinds (`ControlLine`).

The reader takes such a line apart again and again: it trims it, looks
whether it is a comment, cuts it at the first equals sign, trims what it
has cut and takes the quotes off. Each of these could go wrong with a
value, which may hold equals signs, number signs, blanks at its ends and
quotes, and may be a quote. None does: the quotes at the ends keep the
trimming away from the value and come off once, and a key has no equals
sign, so that the first one is the one behind it
(`ControlFile.readControl_text`). For a key this takes conditions, which
are part of what an entry is (`Entry`).

Nothing is said of values that are written without quotes.
-/

namespace Intake.CommandLine

open Text

/-! ## Files -/

/-- Blanks within a line. -/
structure Padding where
  chars : List Char
  blanks : Blanks chars
  unbroken : '\n' ∉ chars

/-- A pair that can be written on a line. -/
structure Entry where
  key : String
  value : String
  key_ne_empty : key ≠ ""
  key_trimmed : trim key = key
  key_unbroken : '\n' ∉ key.toList
  key_undivided : '=' ∉ key.toList
  key_front : key.toList.head? ≠ some '#'
  value_unbroken : '\n' ∉ value.toList

def Entry.pair (e : Entry) : String × String := (e.key, e.value)

/-- The two kinds of quotation marks. -/
inductive QuoteMark where
  | double
  | single
  deriving DecidableEq, Repr

def QuoteMark.char : QuoteMark → Char
  | .double => '"'
  | .single => '\''

/-- A value in quotation marks. -/
def QuoteMark.around (mark : QuoteMark) (value : List Char) : List Char :=
  mark.char :: value ++ [mark.char]

/-- An entry on its line, with any blanks around the equals sign. -/
def Entry.body (e : Entry) (before after : Padding) (mark : QuoteMark) : List Char :=
  e.key.toList ++ before.chars ++ '=' :: (after.chars ++ mark.around e.value.toList)

/-- A line of a control file. -/
inductive ControlLine where
  | blank (blanks : Padding)
  | comment (indent : Padding) (text : List Char) (unbroken : '\n' ∉ text)
  | entry (indent : Padding) (e : Entry) (before after : Padding) (mark : QuoteMark)

namespace ControlLine

def chars : ControlLine → List Char
  | blank blanks => blanks.chars
  | comment indent text _ => indent.chars ++ '#' :: text
  | entry indent e before after mark =>
    indent.chars ++ e.body before after mark

/-- The entry of a line, if it has one. -/
def entries : ControlLine → List Entry
  | entry _ e _ _ _ => [e]
  | _ => []

end ControlLine

/-- How a line ends. -/
inductive LineEnd where
  | lf
  | crlf
  deriving DecidableEq, Repr

/-- What stands before the line feed. -/
def LineEnd.front : LineEnd → List Char
  | lf => []
  | crlf => ['\r']

/-- A control file: lines that are ended, and what stands behind the last
line end. -/
structure ControlFile where
  lines : List (ControlLine × LineEnd)
  last : ControlLine

namespace ControlFile

/-- A line with its end. -/
def ended (line : ControlLine × LineEnd) : List Char :=
  line.1.chars ++ line.2.front ++ ['\n']

def text (file : ControlFile) : String :=
  String.ofList (file.lines.flatMap ended ++ file.last.chars)

def entries (file : ControlFile) : List Entry :=
  file.lines.flatMap (fun line => line.1.entries) ++ file.last.entries

end ControlFile

/-! ## Quotation marks -/

namespace QuoteMark

theorem isBlank_char (mark : QuoteMark) : isBlank mark.char = false := by
  cases mark <;> rfl

theorem trimmed_around (mark : QuoteMark) (value : List Char) : Trimmed (mark.around value) where
  front := by
    intro c hc
    obtain rfl : mark.char = c := by simpa [around] using hc
    exact mark.isBlank_char
  back := by
    intro c hc
    rw [around, List.getLast?_concat] at hc
    cases hc
    exact mark.isBlank_char

theorem stripQuotes_around (mark : QuoteMark) (value : List Char) :
    stripQuotes mark.char (mark.around value) = some value := by
  simp [stripQuotes, around]

/-- Marks of the other kind are not there to be taken off. -/
theorem stripQuotes_around_ne {mark mark' : QuoteMark} (h : mark' ≠ mark) (value : List Char) :
    stripQuotes mark'.char (mark.around value) = none := by
  have hne : mark.char ≠ mark'.char := by
    cases mark <;> cases mark' <;> first | decide | exact absurd rfl h
  simp [stripQuotes, around, hne]

/-- **The marks around a value come off, and only these**, whatever the
value is. -/
theorem unquote_around (mark : QuoteMark) (value : List Char) :
    unquote (String.ofList (mark.around value)) = String.ofList value := by
  rw [unquote, String.toList_ofList]
  show String.ofList ((stripQuotes double.char _ <|> stripQuotes single.char _).getD _) = _
  cases mark with
  | double =>
    rw [stripQuotes_around]
    rfl
  | single =>
    have hother : stripQuotes double.char (single.around value) = none :=
      stripQuotes_around_ne (by decide) value
    rw [hother, stripQuotes_around]
    rfl

end QuoteMark

/-! ## Entries -/

namespace Entry

variable (e : Entry)

theorem trimmed_key : Trimmed e.key.toList := by
  have hkey : trimChars e.key.toList = e.key.toList := by
    have h := congrArg String.toList e.key_trimmed
    rwa [trim, String.toList_ofList] at h
  rw [← hkey]
  exact trimmed_trimChars e.key.toList

/-- A key has a first character, which is neither blank nor a number
sign. -/
theorem exists_key_cons :
    ∃ c cs, e.key.toList = c :: cs ∧ isBlank c = false ∧ c ≠ '#' := by
  cases hkey : e.key.toList with
  | nil => exact absurd (String.toList_eq_nil_iff.mp hkey) e.key_ne_empty
  | cons c cs =>
    refine ⟨c, cs, rfl, ?_, ?_⟩
    · apply e.trimmed_key.front
      rw [hkey]
      rfl
    · intro heq
      apply e.key_front
      rw [hkey, heq]
      rfl

variable (before after : Padding) (mark : QuoteMark)

theorem trimmed_body : Trimmed (e.body before after mark) where
  front := by
    obtain ⟨c, cs, hkey, hblank, -⟩ := e.exists_key_cons
    intro c' hc'
    rw [body, hkey] at hc'
    cases hc'
    exact hblank
  back := by
    intro c hc
    rw [body, QuoteMark.around, ← List.append_assoc after.chars, ← List.cons_append,
      ← List.append_assoc, List.getLast?_concat] at hc
    cases hc
    exact mark.isBlank_char

/-- **The first equals sign is the one behind the key**, and the pair is
read as it was written. -/
theorem splitPair_body :
    splitPair (String.ofList (e.body before after mark)) '='
      = .ok (e.key, String.ofList (mark.around e.value.toList)) := by
  have hblank : '=' ∉ before.chars := by
    intro hmem
    cases before.blanks '=' hmem
  have hcut : splitOnce '=' (e.body before after mark)
      = some (e.key.toList ++ before.chars, after.chars ++ mark.around e.value.toList) := by
    apply splitOnce_append
    intro hmem
    exact (List.mem_append.mp hmem).elim e.key_undivided hblank
  have hnone : Blanks [] := nofun
  have hkey : trimChars (e.key.toList ++ before.chars) = e.key.toList :=
    e.trimmed_key.trimChars_pad hnone before.blanks
  have hvalue : trimChars (after.chars ++ mark.around e.value.toList)
      = mark.around e.value.toList := by
    have h := (mark.trimmed_around e.value.toList).trimChars_pad after.blanks hnone
    rwa [List.append_nil] at h
  rw [splitPair, String.toList_ofList, hcut]
  show Except.ok (String.ofList (trimChars _), String.ofList (trimChars _)) = _
  rw [hkey, hvalue, String.ofList_toList]

end Entry

/-! ## Lines -/

theorem LineEnd.blanks_front (e : LineEnd) : Blanks e.front := by
  cases e <;> decide

namespace ControlLine

theorem unbroken (line : ControlLine) (e : LineEnd) : '\n' ∉ line.chars ++ e.front := by
  have hfront : '\n' ∉ e.front := by cases e <;> decide
  cases line with
  | blank blanks => simp [chars, blanks.unbroken, hfront]
  | comment indent text hunbroken => simp [chars, indent.unbroken, hunbroken, hfront]
  | entry indent e' before after mark =>
    have hmark : '\n' ≠ mark.char := by cases mark <;> decide
    simp [chars, Entry.body, QuoteMark.around, indent.unbroken, before.unbroken, after.unbroken,
      e'.key_unbroken, e'.value_unbroken, hmark, hfront]

theorem readLines_of_body {line : List Char} {c : Char} {rest : List Char} {key value : String}
    (hbody : trimChars line = c :: rest) (hne : c ≠ '#')
    (hsplit : splitPair (String.ofList (c :: rest)) '=' = .ok (key, value)) {number : Nat}
    {lines : List (List Char)} {pairs : List (String × String)}
    (h : readLines (number + 1) lines = .ok pairs) :
    readLines number (line :: lines) = .ok ((key, unquote value) :: pairs) := by
  rw [readLines, hbody]
  split
  · next hnil => cases hnil
  · next hcomment =>
    cases hcomment
    exact absurd rfl hne
  · rw [hsplit, h]
    rfl

/-- **A line gives its entry**, and no line but an entry gives anything. -/
theorem readLines_cons (line : ControlLine) {tail : List Char} (htail : Blanks tail)
    {number : Nat} {lines : List (List Char)} {pairs : List (String × String)}
    (h : readLines (number + 1) lines = .ok pairs) :
    readLines number ((line.chars ++ tail) :: lines)
      = .ok (line.entries.map Entry.pair ++ pairs) := by
  cases line with
  | blank blanks =>
    have hblanks : Blanks (blanks.chars ++ tail) := by
      intro c hc
      exact (List.mem_append.mp hc).elim (blanks.blanks c) (htail c)
    rw [readLines, chars, trimChars_blanks hblanks]
    exact h
  | comment indent text hunbroken =>
    have hcomment : trimChars (indent.chars ++ '#' :: text ++ tail)
        = '#' :: trimBack (text ++ tail) := by
      rw [List.append_assoc, trimChars, trimFront_blanks indent.blanks]
      exact trimBack_cons rfl (text ++ tail)
    rw [readLines, chars, hcomment]
    exact h
  | entry indent e before after mark =>
    obtain ⟨c, cs, hkey, -, hne⟩ := e.exists_key_cons
    have hcons : e.body before after mark
        = c :: (cs ++ before.chars ++ '=' :: (after.chars ++ mark.around e.value.toList)) := by
      rw [Entry.body, hkey]
      rfl
    have hbody := (e.trimmed_body before after mark).trimChars_pad indent.blanks htail
    have hsplit := e.splitPair_body before after mark
    rw [hcons] at hbody hsplit
    rw [chars, hcons, readLines_of_body hbody hne hsplit h, mark.unquote_around,
      String.ofList_toList]
    rfl

end ControlLine

/-! ## Files -/

namespace ControlFile

theorem readLines_text (lines : List (ControlLine × LineEnd)) (last : ControlLine) (number : Nat) :
    readLines number (splitAll '\n' (lines.flatMap ended ++ last.chars))
      = .ok ((lines.flatMap (fun line => line.1.entries) ++ last.entries).map Entry.pair) := by
  induction lines generalizing number with
  | nil =>
    have hunbroken : '\n' ∉ last.chars := by
      have h := last.unbroken .lf
      rwa [LineEnd.front, List.append_nil] at h
    have hnone : Blanks [] := nofun
    have hend : readLines (number + 1) [] = .ok [] := rfl
    have hlast := last.readLines_cons hnone hend
    rw [List.append_nil, List.append_nil] at hlast
    rw [List.flatMap_nil, List.nil_append, splitAll_eq_singleton hunbroken, hlast]
    rfl
  | cons line lines ih =>
    have hcut : splitAll '\n' ((line :: lines).flatMap ended ++ last.chars)
        = (line.1.chars ++ line.2.front)
          :: splitAll '\n' (lines.flatMap ended ++ last.chars) := by
      rw [List.flatMap_cons, ended, ← splitAll_append (line.1.unbroken line.2)]
      simp only [List.append_assoc, List.cons_append, List.nil_append]
    rw [hcut, line.1.readLines_cons line.2.blanks_front (ih (number + 1)), ← List.map_append,
      ← List.append_assoc, List.flatMap_cons]

/-- **A control file that is written is read back**: its pairs in their
order, with the values as they were, and nothing of the rest. -/
theorem readControl_text (file : ControlFile) :
    readControl file.text = .ok (file.entries.map Entry.pair) := by
  rw [readControl, text, String.toList_ofList]
  exact readLines_text file.lines file.last 1

/-- A value with blanks at its ends and the marks of pairs and comments in
it, and one that is a quotation mark in quotation marks of its kind. -/
theorem readControl_text_marks :
    let bare : Padding := ⟨[], nofun, by decide⟩
    let one : Padding := ⟨[' '], by decide, by decide⟩
    let tab : Padding := ⟨['\t'], by decide, by decide⟩
    let null : Entry := ⟨"NULL", " #a=\"b ", by decide, rfl, by decide, by decide, by decide,
      by decide⟩
    let quote : Entry := ⟨"QUOTE", "\"", by decide, rfl, by decide, by decide, by decide,
      by decide⟩
    let file : ControlFile :=
      { lines := [(.comment one [' ', 'k', '=', 'v'] (by decide), .crlf),
          (.entry bare null one one .single, .crlf), (.blank tab, .lf)]
        last := .entry tab quote one bare .double }
    file.text = " # k=v\r\nNULL = ' #a=\"b '\r\n\t\n\tQUOTE =\"\"\"" ∧
      readControl file.text = .ok [("NULL", " #a=\"b "), ("QUOTE", "\"")] := by
  intro bare one tab null quote file
  have hentries : file.entries.map Entry.pair = [("NULL", " #a=\"b "), ("QUOTE", "\"")] := rfl
  refine ⟨by decide +kernel, ?_⟩
  rw [← hentries]
  exact readControl_text file

end ControlFile

end Intake.CommandLine
