import Intake.Queue.Frame
import Intake.Writer.Basic
import Intake.Writer.Report
/-!
# Consumers

The reading side of a parallel load takes frames off the queue and hands
their rows to its writer, until the stream ends or something fails. What
it does between two looks at the queue is one step, so that steps of the
two sides can be put in any order.
-/

namespace Intake

/-- The reading side of a queue with its writer. -/
structure Consumer (σ : Type) where
  writer : σ
  side : Side := {}
  /-- The consumer's own cancel token. -/
  token : Token := {}
  /-- The length of the frame that comes next, once it is known. -/
  body : Option Nat := none
  /-- How the consumer ended, once it has. -/
  report : Option Report := none

/-- A consumer with the queue and the site it works on. -/
structure Consumption (σ : Type) where
  consumer : Consumer σ
  queue : Segment
  site : Site

namespace Consumption

variable {σ : Type}

/-- The consumer stops because of a failure: its writer is closed in error
mode. -/
def stop (w : Writer σ) (c : Consumption σ) (e : WriterError) : Consumption σ :=
  match w.close c.consumer.writer true c.site with
  | (outcome, writer, site) =>
    let counts := match outcome with
      | .ok counts => counts
      | .error _ => {}
    { c with
      consumer := { c.consumer with writer := writer, report := some ⟨counts, some e⟩ }
      site := site }

/-- The stream has ended: the writer is closed. -/
def finish (w : Writer σ) (c : Consumption σ) : Consumption σ :=
  match w.close c.consumer.writer false c.site with
  | (.ok counts, writer, site) =>
    { c with
      consumer := { c.consumer with writer := writer, report := some ⟨counts, none⟩ }
      site := site }
  | (.error e, writer, site) =>
    { c with consumer := { c.consumer with writer := writer }, site := site }.stop w e

/-- What follows a length. -/
def header (w : Writer σ) (c : Consumption σ) (length : Nat) : Consumption σ :=
  if length = Frame.terminator then c.finish w
  else if length = Frame.abortMark then
    c.stop w (.remote "load aborted by the producer")
  else { c with consumer := { c.consumer with body := some length } }

/-- A frame is handed to the writer. -/
def frame (w : Writer σ) (c : Consumption σ) (bs : Bytes) : Consumption σ :=
  match Frame.decode bs with
  | .error e => c.stop w (.encode e.message)
  | .ok (row, raw) =>
    match w.insert c.consumer.writer row raw c.site with
    | (.error e, writer, site) =>
      { c with consumer := { c.consumer with writer := writer }, site := site }.stop w e
    | (.ok (), writer, site) =>
      { c with consumer := { c.consumer with writer := writer, body := none }, site := site }

/-- One look at the queue and what follows from it; nothing if there is
nothing to read yet, or the consumer has ended. -/
def step? (w : Writer σ) (c : Consumption σ) : Option (Consumption σ) :=
  if c.consumer.report.isSome then none
  else
    let wanted := c.consumer.body.getD 4
    match c.queue.read c.consumer.side c.consumer.token wanted with
    | (.error e, queue) => some ({ c with queue := queue }.stop w (.queue e))
    | (.ok none, _) => none
    | (.ok (some bs), queue) =>
      let c := { c with queue := queue }
      match c.consumer.body with
      | none => some (c.header w (Bytes.unsigned bs))
      | some _ => some (c.frame w bs)

/-- At most `n` steps. -/
def steps (w : Writer σ) : Nat → Consumption σ → Consumption σ
  | 0, c => c
  | n + 1, c =>
    match c.step? w with
    | none => c
    | some c => steps w n c

/-- Steps until there is nothing to read or the consumer has ended. Each
step takes bytes off the queue, or is the last. -/
def settle (w : Writer σ) (c : Consumption σ) : Consumption σ := c.steps w (c.queue.used + 1)

end Consumption
end Intake
