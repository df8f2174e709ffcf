import Intake.Error
import Intake.Numeral.Shortest
import Intake.Options.Basic
/-!
# Events of a run

What a run tells its observers: that it starts, each record it rejects,
and how it ends, with the counts it has come to.
-/

namespace Intake

/-- The counts a run has come to. -/
structure Summary where
  skipped : Nat := 0
  loaded : Nat := 0
  parseRejected : Nat := 0
  /-- New rows left out because their key was stored. -/
  duplicateNew : Nat := 0
  /-- Stored rows replaced by new ones of their key. -/
  duplicateOld : Nat := 0
  /-- Nanoseconds the run took. -/
  elapsed : Nat := 0
  deriving DecidableEq, Repr

namespace Summary

/-- A number of nanoseconds in seconds: whole seconds and the rest are
converted apart and added. -/
def seconds (nanoseconds : Nat) : Numeral.Binary64 :=
  (Numeral.Binary64.ofRatio (nanoseconds / 1000000000) 1).add
    (Numeral.Binary64.ofRatio (nanoseconds % 1000000000) 1000000000)

/-- The counts as text. -/
def text (s : Summary) : String :=
  toString s.skipped ++ " Rows skipped.\n"
    ++ toString s.loaded ++ " Rows successfully loaded.\n"
    ++ toString s.parseRejected ++ " Rows not loaded due to parse errors.\n"
    ++ toString s.duplicateNew ++ " Rows not loaded due to duplicate errors.\n"
    ++ toString s.duplicateOld ++ " Rows replaced with new rows.\n"
    ++ "Run took " ++ (seconds s.elapsed).fixed 3 ++ " sec"

end Summary

/-- What a run is about. -/
structure Context where
  /-- The input's name. -/
  input : String
  format : InputFormat
  writer : WriterKind
  deriving DecidableEq, Repr

/-- Why a record was rejected. -/
inductive RejectKind where
  /-- It could not be divided or converted. -/
  | parse
  /-- Its row breaks a rule. -/
  | constraint
  deriving DecidableEq, Repr

/-- The reason in log lines. -/
def RejectKind.title : RejectKind → String
  | .parse => "Parse"
  | .constraint => "Constraint"

/-- The reason for a rejection. -/
def Rejection.kind : Rejection → RejectKind
  | .parse _ => .parse
  | .constraint _ => .constraint

/-- What a run tells its observers. -/
inductive Event where
  | started (c : Context)
  | rejected (c : Context) (kind : RejectKind) (record : Nat) (message : String)
  | succeeded (c : Context) (s : Summary)
  | failed (c : Context) (severity : Severity) (e : LoadError) (s : Summary)
  /-- A failure is grave enough to be passed on at once. -/
  | alerted (c : Context) (severity : Severity) (e : LoadError) (s : Summary)
  deriving DecidableEq, Repr

end Intake
