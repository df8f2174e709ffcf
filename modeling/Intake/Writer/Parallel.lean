import Intake.Queue.Frame
import Intake.Writer.Basic
import Intake.Writer.Report
/-!
# The parallel writer

The writing side of a parallel load puts each row on the queue as a
frame. Where the queue is full it waits, and each time the wait is over
it asks whether the consumer still lives; a consumer that lives and does
not read is given up in the end. Closing ends the stream and collects the
consumer's report; closing in error mode tells the consumer to give up.

The consumer is known only by what can be asked of it (`Peer`). While the
writer waits the consumer may read, and a peer says what it does then.
-/

namespace Intake

/-- What the writer can ask of a consumer whose states are `π`. -/
structure Peer (π : Type) where
  /-- What the consumer does while the writer waits. -/
  proceed : π → Segment → Site → π × Segment × Site
  isAlive : π → Bool × π
  /-- Waits for the consumer to end. -/
  wait : π → Segment → Site → Report × π × Segment × Site
  /-- Stops the consumer; the counts it reached, if they can be had. -/
  abort : π → Segment → Site → Option Counts × π × Segment × Site

/-- A writer over a queue. -/
structure ParallelWriter (π : Type) where
  queue : Segment
  side : Side := { owner := true }
  peer : π
  /-- Milliseconds that a write waits for room. -/
  timeout : Nat
  /-- Writes in a row that may time out. -/
  maxStalls : Nat
  /-- The counts last reported. -/
  reported : Counts := {}
  closed : Bool := false

/-- A duration of whole milliseconds in log lines. -/
def durationText (milliseconds : Nat) : String :=
  let thousandths := milliseconds % 1000
  if milliseconds = 0 then "0ns"
  else if milliseconds < 1000 then toString milliseconds ++ "ms"
  else if thousandths = 0 then toString (milliseconds / 1000) ++ "s"
  else
    let digits := (Numeral.padded 3 thousandths).reverse.dropWhile (· == '0')
    toString (milliseconds / 1000) ++ "." ++ String.ofList digits.reverse ++ "s"

namespace ParallelWriter

variable {π : Type}

/-- A writer, at least one timed-out write being allowed. -/
def start (queue : Segment) (peer : π) (timeout maxStalls : Nat) : ParallelWriter π :=
  { queue := queue, peer := peer, timeout := timeout, maxStalls := max maxStalls 1 }

/-- The consumer may read. -/
def yield (p : Peer π) (w : ParallelWriter π) (s : Site) : ParallelWriter π × Site :=
  match p.proceed w.peer w.queue s with
  | (peer, queue, s) => ({ w with peer := peer, queue := queue }, s)

/-- One attempt to put parts on the queue. -/
def attempt (p : Peer π) (w : ParallelWriter π) (parts : List Bytes) (s : Site) :
    Except QueueError Bool × ParallelWriter π × Site :=
  match w.yield p s with
  | (w, s) =>
    match w.queue.write w.side s.token parts with
    | (outcome, queue) => (outcome, { w with queue := queue }, s)

/-- Puts parts on the queue, waiting for room until the time is up. -/
def offer (p : Peer π) (w : ParallelWriter π) (parts : List Bytes) (s : Site) :
    Except QueueError Bool × ParallelWriter π × Site :=
  match w.attempt p parts s with
  | (.ok false, w, s) => w.attempt p parts s
  | result => result

/-- Collects the consumer's report. -/
def collect (p : Peer π) (w : ParallelWriter π) (s : Site) :
    Except WriterError Counts × ParallelWriter π × Site :=
  match p.wait w.peer w.queue s with
  | (report, peer, queue, s) =>
    (report.result, { w with peer := peer, queue := queue, reported := report.counts }, s)

/-- Stops the consumer. -/
def release (p : Peer π) (w : ParallelWriter π) (s : Site) : ParallelWriter π × Site :=
  match p.abort w.peer w.queue s with
  | (counts, peer, queue, s) =>
    ({ w with peer := peer, queue := queue, reported := counts.getD w.reported }, s)

/-- What is wrong when the consumer no longer lives: what it reports. -/
def consumerGone (p : Peer π) (w : ParallelWriter π) (s : Site) :
    Except WriterError Unit × ParallelWriter π × Site :=
  match w.collect p s with
  | (.error e, w, s) => (.error e, w, s)
  | (.ok _, w, s) => (.error .peerGone, w, s)

/-- Puts parts on the queue; `left` of the allowed timeouts are left. The
consumer may read, and end, until it is asked whether it lives. -/
def sendFrom (p : Peer π) (parts : List Bytes) :
    (left : Nat) → ParallelWriter π → Site → Except WriterError Unit × ParallelWriter π × Site
  | 0, w, s => (.error (.peerStalled w.maxStalls), w, s)
  | left + 1, w, s =>
    match w.offer p parts s with
    | (.error e, w, s) => (.error (.queue e), w, s)
    | (.ok true, w, s) => (.ok (), w, s)
    | (.ok false, w, s) =>
      match w.yield p s with
      | (w, s) =>
        match p.isAlive w.peer with
        | (false, peer) => { w with peer := peer }.consumerGone p s
        | (true, peer) =>
          let s := s.warn ("ring queue still full after " ++ durationText w.timeout
            ++ ", consumer alive (" ++ toString (w.maxStalls - left) ++ "/"
            ++ toString w.maxStalls ++ ")")
          sendFrom p parts left { w with peer := peer } s

/-- Puts parts on the queue. -/
def send (p : Peer π) (w : ParallelWriter π) (parts : List Bytes) (s : Site) :
    Except WriterError Unit × ParallelWriter π × Site :=
  sendFrom p parts w.maxStalls w s

/-- Takes one row. -/
def insert (p : Peer π) (w : ParallelWriter π) (row : Row) (raw : Bytes) (s : Site) :
    Except WriterError Unit × ParallelWriter π × Site :=
  if w.closed then (.error .closed, w, s)
  else
    let frame := Frame.encode row raw
    if Frame.abortMark ≤ frame.length then
      (.error (.queue (.tooLarge frame.length w.queue.capacity)), w, s)
    else w.send p [Frame.lengthBytes frame.length, frame] s

/-- Closes the queue. -/
def closeQueue (w : ParallelWriter π) : ParallelWriter π :=
  match w.queue.close w.side with
  | (side, queue) => { w with queue := queue, side := side }

/-- Tells the consumer to give up, if there is room to, and stops it. -/
def abandon (p : Peer π) (w : ParallelWriter π) (s : Site) :
    Except WriterError Counts × ParallelWriter π × Site :=
  match w.offer p [Frame.lengthBytes Frame.abortMark] s with
  | (_, w, s) =>
    match w.release p s with
    | (w, s) => (.ok w.reported, w.closeQueue, s)

/-- Ends the stream and collects the report; the consumer is stopped where
that fails. -/
def complete (p : Peer π) (w : ParallelWriter π) (s : Site) :
    Except WriterError Counts × ParallelWriter π × Site :=
  let ended : Except WriterError Counts × ParallelWriter π × Site :=
    match w.send p [Frame.lengthBytes Frame.terminator] s with
    | (.error e, w, s) => (.error e, w, s)
    | (.ok (), w, s) => w.collect p s
  match ended with
  | (.ok counts, w, s) => (.ok counts, w.closeQueue, s)
  | (.error e, w, s) =>
    match w.release p s with
    | (w, s) => (.error e, w.closeQueue, s)

/-- Ends the writing. A second time it only reports the counts. -/
def close (p : Peer π) (w : ParallelWriter π) (onError : Bool) (s : Site) :
    Except WriterError Counts × ParallelWriter π × Site :=
  if w.closed then (.ok w.reported, w, s)
  else
    let w := { w with closed := true }
    if onError then w.abandon p s else w.complete p s

/-- A writer over a queue as a writer. -/
def writer (p : Peer π) : Writer (ParallelWriter π) := ⟨insert p, close p⟩

end ParallelWriter
end Intake
