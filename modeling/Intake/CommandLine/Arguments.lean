import Intake.CommandLine.Control
/-!
# Arguments

What the words of a command line ask for. An option has a long name and
perhaps a letter; its value follows as the next word or after an equals
sign. A word that looks like an option is never taken for a value.
-/

namespace Intake.CommandLine

/-- What an option's value has to be. -/
inductive ValueKind where
  | text
  /-- A path, which is not empty. -/
  | path
  /-- The key of a queue. -/
  | key
  deriving DecidableEq, Repr

/-- Whether a value is of a kind. -/
def ValueKind.accepts : ValueKind → String → Bool
  | .text, _ => true
  | .path, value => value != ""
  | .key, value => (readKey value).isOk

/-- An option of a command. -/
structure Flag where
  name : String
  kind : ValueKind := .text
  letter : Option Char := none
  /-- It may be given more than once. -/
  repeatable : Bool := false
  deriving DecidableEq, Repr

/-- What keeps the words from being a command. -/
inductive Refusal where
  /-- They are not one. -/
  | usage
  /-- They ask for help. -/
  | help
  deriving DecidableEq, Repr

/-- Whether a word looks like an option. -/
def isFlagLike (word : String) : Bool := word.startsWith "-" && word != "-"

/-- A long option and the value after its equals sign, if there is one. -/
def splitLong (word : String) : String × Option String :=
  let body := word.toList.drop 2
  match Text.splitOnce '=' body with
  | some (name, value) => (String.ofList name, some (String.ofList value))
  | none => (String.ofList body, none)

/-- The option of a word and the value that the word holds. -/
def flagOf (flags : List Flag) (word : String) : Except Refusal (Flag × Option String) :=
  if word == "--help" || word == "-h" then .error .help
  else if word.startsWith "--" then
    let (name, value) := splitLong word
    match flags.find? fun f => f.name == name with
    | some f => .ok (f, value)
    | none => .error .usage
  else
    match word.toList with
    | '-' :: letter :: rest =>
      match flags.find? fun f => f.letter == some letter with
      | some f =>
        match rest with
        | [] => .ok (f, none)
        | '=' :: value => .ok (f, some (String.ofList value))
        | value => .ok (f, some (String.ofList value))
      | none => if letter == 'h' then .error .help else .error .usage
    | _ => .error .usage

/-- The values of options, in the order of the words. -/
def readFlags (flags : List Flag) : List String → List (String × String) →
    Except Refusal (List (String × String))
  | [], given => .ok given.reverse
  | "--" :: rest, given => if rest.isEmpty then .ok given.reverse else .error .usage
  | word :: rest, given =>
    match flagOf flags word with
    | .error r => .error r
    | .ok (f, value) =>
      if !f.repeatable && given.any (fun g => g.1 == f.name) then .error .usage
      else
        match value, rest with
        | some value, rest =>
          if !f.kind.accepts value then .error .usage
          else readFlags flags rest ((f.name, value) :: given)
        | none, value :: rest =>
          if isFlagLike value || !f.kind.accepts value then .error .usage
          else readFlags flags rest ((f.name, value) :: given)
        | none, [] => .error .usage

/-- The value of an option that is given once at most. -/
def single? (given : List (String × String)) (name : String) : Option String :=
  given.lookup name

/-- The values of an option that may be given more than once. -/
def every (given : List (String × String)) (name : String) : List String :=
  (given.filter fun g => g.1 == name).map Prod.snd

/-- What a command line asks for. -/
inductive Command where
  | version
  /-- A load of an input into a file of rows. -/
  | load (input : String) (columns options : List String) (control : Option String)
      (output : String)
  /-- The reading side of a parallel load. -/
  | consume (key : Nat) (settings : String) (directory : Option String)
  deriving DecidableEq, Repr

/-- The options of a load. -/
def loadFlags : List Flag :=
  [{ name := "input" }, { name := "column", repeatable := true },
    { name := "option", letter := some 'o', repeatable := true },
    { name := "control", kind := .path }, { name := "output", kind := .path }]

/-- The load that words ask for. -/
def readLoad (words : List String) : Except Refusal Command :=
  match readFlags loadFlags words [] with
  | .error r => .error r
  | .ok given =>
    let columns := every given "column"
    match single? given "output" with
    | none => .error .usage
    | some output =>
      if columns.isEmpty then .error .usage
      else
        .ok (.load ((single? given "input").getD "-") columns (every given "option")
          (single? given "control") output)

/-- The options of a consumer. -/
def consumeFlags : List Flag :=
  [{ name := "queue", kind := .key }, { name := "config" }, { name := "queue-dir", kind := .path }]

/-- The consumer that words ask for. -/
def readConsume (words : List String) : Except Refusal Command :=
  match readFlags consumeFlags words [] with
  | .error r => .error r
  | .ok given =>
    match single? given "queue", single? given "config" with
    | some queue, some settings =>
      match readKey queue with
      | .error _ => .error .usage
      | .ok key => .ok (.consume key settings (single? given "queue-dir"))
    | _, _ => .error .usage

/-- What the words after a call for help ask for: the help on one command
at most. -/
def readHelp (words : List String) : Refusal :=
  if words ∈ [[], ["load"], ["consume"], ["help"]] then .help else .usage

/-- The command that words ask for. -/
def readCommand (words : List String) : Except Refusal Command :=
  match words with
  | "load" :: rest => readLoad rest
  | "consume" :: rest => readConsume rest
  | "help" :: rest => .error (readHelp rest)
  | word :: _ =>
    if word == "--version" || word.startsWith "-V" then .ok .version
    else if word == "--help" || word.startsWith "-h" then .error .help
    else .error .usage
  | [] => .error .usage

end Intake.CommandLine
