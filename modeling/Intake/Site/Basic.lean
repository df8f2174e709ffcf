import Intake.Site.Directory
import Intake.Site.Event
/-!
# The site of a run

What a run has around it: the directory of its files, the token by which
it can be asked to stop, the log, the error stream, and what its
observers have noted. Every step of a run takes the site and gives it
back, also when it fails.
-/

namespace Intake

/-- The weight of a log line. -/
inductive Level where
  | warn
  | error
  deriving DecidableEq, Repr

/-- One line of the log. -/
structure LogLine where
  level : Level
  text : String
  deriving DecidableEq, Repr

/-- An event that an observer has noted. -/
structure Note where
  observer : String
  event : Event
  deriving DecidableEq, Repr

/-- What a run has around it. -/
structure Site where
  directory : Directory := {}
  /-- The run's cancel token. -/
  token : Token := {}
  /-- The log, earliest line first. -/
  log : List LogLine := []
  /-- What observers have noted, earliest first. -/
  notes : List Note := []
  /-- Lines on the error stream, earliest first. -/
  errors : List String := []
  /-- Seconds since 1970. -/
  clock : Nat := 0
  deriving Repr

namespace Site

/-- Adds a warning to the log. -/
def warn (s : Site) (text : String) : Site := { s with log := s.log ++ [⟨.warn, text⟩] }

/-- Adds an error to the log. -/
def fail (s : Site) (text : String) : Site := { s with log := s.log ++ [⟨.error, text⟩] }

/-- Passes requests to stop on to the run's token. -/
def request (s : Site) (ks : List Interrupt) : Site := { s with token := s.token.requests ks }

end Site
end Intake
