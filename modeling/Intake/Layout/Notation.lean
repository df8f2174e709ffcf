import Intake.Layout.Basic
/-!
# Column notation

The text in which a field of a fixed-width layout is written: a type, a
place in parentheses, and what stands for NULL. A place is a length, a
first and a last byte counted from 1, or an offset and a length:

    CHAR(10)    INTEGER(11:14)    DOUBLE(20+8)    VARCHAR(5) NULLIF 'N/A'

A type of fixed size may leave the place out, and a field without an
offset follows the one before it.
-/

namespace Intake.Layout

open Text

/-- Splits the letters off the front, and the blanks on both sides of them. -/
def takeWord (cs : List Char) : List Char × List Char :=
  let cs := trimFront cs
  (cs.takeWhile isLetter, trimFront (cs.dropWhile isLetter))

/-- The word in upper case. -/
def wordOf (cs : List Char) : String := upper (String.ofList cs)

/-- The kind that a type name stands for, and the length it has unless
one is given. -/
def kindOf (name : String) : Except String (FieldKind × Option Nat) :=
  match name with
  | "CHAR" | "CHARACTER" => .ok (.char, none)
  | "VARCHAR" => .ok (.varchar, none)
  | "INTEGER" | "INT" => .ok (.integer, some 4)
  | "SMALLINT" => .ok (.integer, some 2)
  | "BIGINT" => .ok (.integer, some 8)
  | "UNSIGNED" | "UNSIGNED INTEGER" | "UNSIGNED INT" => .ok (.unsigned, some 4)
  | "UNSIGNED SMALLINT" => .ok (.unsigned, some 2)
  | "UNSIGNED BIGINT" => .ok (.unsigned, some 8)
  | "FLOAT" | "REAL" => .ok (.float, some 4)
  | "DOUBLE" => .ok (.float, some 8)
  | other => .error ("unknown field type '" ++ other ++ "'")

/-- The type name at the front: one word, or two where the first says
that a number has no sign. -/
def takeType (cs : List Char) : Except String (String × List Char) :=
  let (word, rest) := takeWord cs
  if word.isEmpty then .error "missing field type"
  else if wordOf word = "UNSIGNED" then
    let (next, rest') := takeWord rest
    if next.isEmpty || wordOf next == "NULLIF" then .ok ("UNSIGNED", rest)
    else .ok ("UNSIGNED " ++ wordOf next, rest')
  else .ok (wordOf word, rest)

/-- A number of a place. -/
def number (cs : List Char) : Except String Nat :=
  match Numeral.count? (trimChars cs) with
  | some n => .ok n
  | none => .error ("invalid number '" ++ String.ofList (trimChars cs) ++ "'")

/-- The offset and the length that a place in parentheses gives. -/
def place (next : Nat) (inner : List Char) : Except String (Nat × Nat) :=
  match splitOnce ':' inner with
  | some (first, last) =>
    match number first, number last with
    | .error m, _ => .error m
    | _, .error m => .error m
    | .ok first, .ok last =>
      if first = 0 ∨ last < first then
        .error ("invalid range " ++ toString first ++ ":" ++ toString last)
      else .ok (first - 1, last - first + 1)
  | none =>
    match splitOnce '+' inner with
    | some (offset, length) =>
      match number offset, number length with
      | .error m, _ => .error m
      | _, .error m => .error m
      | .ok offset, .ok length => .ok (offset, length)
    | none => (number inner).map fun length => (next, length)

/-- The place at the front, or the one that the type implies, and what
follows it. -/
def takePlace (next : Nat) (implied : Option Nat) (cs : List Char) :
    Except String ((Nat × Nat) × List Char) :=
  match cs with
  | '(' :: inner =>
    match splitOnce ')' inner with
    | none => .error "missing ')'"
    | some (inner, rest) => (place next inner).map fun p => (p, trimFront rest)
  | _ =>
    match implied with
    | some length => .ok ((next, length), cs)
    | none => .error "field length is required"

/-- Which lengths a kind can have. -/
def checkLength (kind : FieldKind) (offset length : Nat) : Except String Unit :=
  if length = 0 then .error "field length must be positive"
  else if maxPlace < offset + length then .error "field range out of bounds"
  else
    match kind with
    | .integer | .unsigned =>
      if [1, 2, 4, 8].contains length then .ok ()
      else .error ("integer length must be 1, 2, 4 or 8, not " ++ toString length)
    | .float =>
      if [4, 8].contains length then .ok ()
      else .error ("float length must be 4 or 8, not " ++ toString length)
    | .char | .varchar => .ok ()

/-- A text in which each pair of `quote` becomes one, from the left. -/
def undouble (quote : Char) : List Char → List Char
  | a :: b :: rest =>
    if a = quote ∧ b = quote then quote :: undouble quote rest
    else a :: undouble quote (b :: rest)
  | cs => cs

/-- The content of a literal, its opening quote gone: the last character
must be the quote again. -/
def literal (quote : Char) (body : List Char) : Except String Bytes :=
  if body.getLast? = some quote then
    .ok (Bytes.ofString (String.ofList (undouble quote body.dropLast)))
  else .error "unterminated NULLIF literal"

/-- Hexadecimal digits without the mark they may begin with. -/
def unmarked : List Char → List Char
  | '0' :: 'x' :: cs => cs
  | '0' :: 'X' :: cs => cs
  | cs => cs

/-- The bytes that stand for NULL: a quoted literal or hexadecimal
digits. -/
def pattern (cs : List Char) : Except String Bytes :=
  match cs with
  | [] => .error "NULLIF requires a pattern"
  | '\'' :: body => literal '\'' body
  | '"' :: body => literal '"' body
  | _ =>
    match Bytes.ofHex? (unmarked cs) with
    | some bs => .ok bs
    | none => .error ("invalid NULLIF pattern '" ++ String.ofList cs ++ "'")

/-- What follows the place: nothing, or what stands for NULL. -/
def nullIf (cs : List Char) : Except String (Option Bytes) :=
  if cs.isEmpty then .ok none
  else
    let (word, rest) := takeWord cs
    if wordOf word = "NULLIF" then (pattern (trimChars rest)).map some
    else .error ("unexpected '" ++ String.ofList cs ++ "'")

/-- One field; without an offset it starts at `next`. -/
def readField (next : Nat) (spec : String) : Except String FieldSpec :=
  match takeType (trimChars spec.toList) with
  | .error m => .error m
  | .ok (name, rest) =>
    match kindOf name with
    | .error m => .error m
    | .ok (kind, implied) =>
      match takePlace next implied rest with
      | .error m => .error m
      | .ok ((offset, length), rest) =>
        match checkLength kind offset length with
        | .error m => .error m
        | .ok () => (nullIf rest).map fun pattern => ⟨kind, offset, length, pattern⟩

/-- The fields of several texts, numbered from `column`; the first starts
at `next` unless it says otherwise. -/
def readFields (column next : Nat) : List String → Except LoadError (List FieldSpec)
  | [] => .ok []
  | spec :: specs =>
    match readField next spec with
    | .error m =>
      .error (.config ("COL " ++ toString column ++ ": " ++ m ++ " in '" ++ spec ++ "'"))
    | .ok f => (readFields (column + 1) f.stop specs).map (f :: ·)

/-- The layout that several texts write. -/
def ofNotation (specs : List String) (stride : Option Nat) : Except LoadError Layout :=
  match readFields 1 0 specs with
  | .error e => .error e
  | .ok fields => ofFields fields stride

end Intake.Layout
