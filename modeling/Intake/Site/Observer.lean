import Intake.Site.Basic
/-!
# Observers

An observer hears each event of a run and does something about it at the
run's site: it notes it, prints a line, or adds lines to a file. None of
them can make the run fail.
-/

namespace Intake

/-- What an observer does about an event. -/
abbrev Observer := Event → Site → Site

namespace Observer

/-- An observer that does nothing. -/
def silent : Observer := fun _ s => s

/-- Several observers, each hearing every event, in order. -/
def all (os : List Observer) : Observer := fun e s => os.foldl (fun s o => o e s) s

/-- An observer that notes every event. -/
def noting (name : String) : Observer := fun e s => { s with notes := s.notes ++ [⟨name, e⟩] }

/-- An observer of failures only, to which an alert is one more failure. -/
def ofFailures (o : Observer) : Observer := fun e s =>
  match e with
  | .failed _ _ _ _ => o e s
  | .alerted c severity error summary => o (.failed c severity error summary) s
  | _ => s

/-- A line of a run that did not succeed. -/
def failureLine (mark : String) (c : Context) (severity : Severity) (e : LoadError)
    (s : Summary) : String :=
  mark ++ "[" ++ severity.name ++ "] format=" ++ c.format.title ++ " input=" ++ c.input
    ++ " loaded=" ++ toString s.loaded ++ " err=" ++ e.message

/-- The line that the end of a run puts on the error stream. -/
def consoleLine? : Event → Option String
  | .succeeded c s =>
    some ("[load][ok] format=" ++ c.format.title ++ " writer=" ++ c.writer.title ++ " input="
      ++ c.input ++ " loaded=" ++ toString s.loaded ++ " rejected="
      ++ toString (s.parseRejected + s.duplicateNew + s.duplicateOld))
  | .failed c severity e s => some (failureLine "[load]" c severity e s)
  | .alerted c severity e s => some (failureLine "[ALERT][load]" c severity e s)
  | _ => none

/-- An observer that reports the end of a run on the error stream. -/
def console : Observer := fun e s =>
  match consoleLine? e with
  | some line => { s with errors := s.errors ++ [line] }
  | none => s

/-- What a log file says about an event, after the time. -/
def fileText : Event → String
  | .started c =>
    "start input=" ++ c.input ++ " type=" ++ c.format.title ++ " writer=" ++ c.writer.title
  | .rejected _ kind record message =>
    "reject kind=" ++ kind.title ++ " record=" ++ toString record ++ " err=" ++ message
  | .succeeded _ s => "ok\n" ++ s.text
  | .failed _ severity e s =>
    "fail severity=" ++ severity.name ++ " err=" ++ e.message ++ "\n" ++ s.text
  | .alerted _ severity e s =>
    "ALERT severity=" ++ severity.name ++ " err=" ++ e.message ++ "\n" ++ s.text

/-- An observer that adds each event to a file, if that can be opened. -/
def file (path : String) : Observer := fun e s =>
  match s.directory.openToAppend path with
  | (.error _, directory) => { s with directory := directory }
  | (.ok name, directory) =>
    let text := toString s.clock ++ " " ++ fileText e ++ "\n"
    { s with directory := directory.append name (Bytes.ofString text) }

end Observer
end Intake
