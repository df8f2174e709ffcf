import Intake.Site.Basic
import Intake.Table.Row
import Intake.Writer.Duplicates
/-!
# Writers

A writer takes accepted rows one by one and is closed at the end. What a
run or a consumer does with its writer depends on nothing else, so both
are written for any writer: a type of states with the two operations.
-/

namespace Intake

/-- The operations of a writer whose states are `σ`. -/
structure Writer (σ : Type) where
  /-- Takes one row; `raw` is its record. -/
  insert : σ → Row → Bytes → Site → Except WriterError Unit × σ × Site
  /-- Ends the writing. In error mode the run is failing already: what was
  not finished stays so, and no further failure is reported. -/
  close : σ → (onError : Bool) → Site → Except WriterError Counts × σ × Site

end Intake
