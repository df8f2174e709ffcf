import Intake.CommandLine.Complaint
import Intake.Numeral.Integer
import Intake.Table.Row
import Intake.Text.Blank
/-!
# Pairs, control files and columns

The small notations of the command line: an option as a key and a value,
a control file with one such pair a line, and a column as a name, a type
and a flag.
-/

namespace Intake.CommandLine

open Text

/-- A text around its first separator, both parts trimmed. -/
def splitPair (text : String) (separator : Char) : Except Complaint (String × String) :=
  match splitOnce separator text.toList with
  | some (key, value) => .ok (String.ofList (trimChars key), String.ofList (trimChars value))
  | none =>
    .error (.plain ("expected KEY" ++ String.singleton separator ++ "VALUE, got \"" ++ text ++
      "\""))

/-- What stands between two quotes of one kind at the ends; anything else
as it is. -/
def stripQuotes (quote : Char) (cs : List Char) : Option (List Char) :=
  match cs with
  | c :: rest => if c = quote ∧ rest.getLast? = some quote then some rest.dropLast else none
  | [] => none

/-- A value without the quotes around it. -/
def unquote (value : String) : String :=
  let cs := value.toList
  String.ofList ((stripQuotes '"' cs <|> stripQuotes '\'' cs).getD cs)

/-- The pairs of the lines of a control file, numbered from `number`.
Empty lines and lines that begin with a number sign say nothing. -/
def readLines (number : Nat) : List (List Char) → Except Complaint (List (String × String))
  | [] => .ok []
  | line :: lines =>
    match trimChars line with
    | [] => readLines (number + 1) lines
    | '#' :: _ => readLines (number + 1) lines
    | body =>
      match splitPair (String.ofList body) '=' with
      | .error c => .error (c.within ("control file line " ++ toString number))
      | .ok (key, value) => (readLines (number + 1) lines).map ((key, unquote value) :: ·)

/-- The pairs of a control file. -/
def readControl (text : String) : Except Complaint (List (String × String)) :=
  readLines 1 (splitAll '\n' text.toList)

/-- Whether a word says that a column refuses NULL. -/
def isNotNull (word : String) : Bool :=
  sameLetters word "notnull" || sameLetters word "not_null"

/-- A column: a name, a type, and perhaps a flag. -/
def readColumn (spec : String) : Except Complaint Column :=
  let parts := (splitAll ':' spec.toList).map fun cs => String.ofList (trimChars cs)
  let name := parts.getD 0 ""
  let type := parts.getD 1 ""
  if name.isEmpty || type.isEmpty then
    .error (.plain ("column must be NAME:TYPE[:notnull], got \"" ++ spec ++ "\""))
  else
    match ColumnType.ofName? type with
    | none => .error (.plain ("unknown column type \"" ++ type ++ "\""))
    | some t =>
      match parts[2]? with
      | none => .ok { name := name, type := t }
      | some word =>
        if isNotNull word then .ok { name := name, type := t, notNull := true }
        else .error (.plain ("unknown column flag \"" ++ word ++ "\""))

/-- The columns of a table, in order. -/
def readColumns : List String → Except Complaint (List Column)
  | [] => .ok []
  | spec :: specs =>
    match readColumn spec with
    | .error c => .error c
    | .ok column => (readColumns specs).map (column :: ·)

/-- The pairs of several texts, in order. -/
def readPairs : List String → Except Complaint (List (String × String))
  | [] => .ok []
  | text :: texts =>
    match splitPair text '=' with
    | .error c => .error c
    | .ok pair => (readPairs texts).map (pair :: ·)

/-- The key of a queue. -/
def readKey (text : String) : Except Numeral.Fault Nat :=
  Numeral.readUnsigned Numeral.maxCount (trimChars text.toList)

end Intake.CommandLine
