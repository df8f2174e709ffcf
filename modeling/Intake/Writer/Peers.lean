import Intake.Writer.Consumer
import Intake.Writer.ConsumerSettings
import Intake.Writer.Parallel
/-!
# Consumers of a load

Two kinds of consumer stand behind a parallel writer. A thread shares the
run's memory: it has a cancel token of its own, and its report arrives as
it is. A process reads its settings when it starts, sees nothing of the
run but the queue, and its report arrives as text; a run that stops early
can tell it so only over the queue.
-/

namespace Intake

/-- A consumer that reads while the run writes. -/
structure ThreadPeer (σ : Type) where
  consumer : Consumer σ
  /-- How many steps the consumer makes at each opportunity; after these,
  as many as it can. -/
  pace : List Nat := []
  /-- Its report has been collected. -/
  joined : Bool := false

namespace ThreadPeer

variable {σ : Type}

/-- The consumer makes some steps. The log is the run's; a consumer's
lines go elsewhere. -/
def advance (f : Consumption σ → Consumption σ) (t : ThreadPeer σ) (q : Segment) (s : Site) :
    ThreadPeer σ × Segment × Site :=
  let c := f ⟨t.consumer, q, s⟩
  ({ t with consumer := c.consumer }, c.queue, { c.site with log := s.log })

/-- The consumer uses one opportunity to read. -/
def proceed (w : Writer σ) (t : ThreadPeer σ) (q : Segment) (s : Site) :
    ThreadPeer σ × Segment × Site :=
  match t.pace with
  | [] => t.advance (·.settle w) q s
  | n :: pace => { t with pace := pace }.advance (·.steps w n) q s

/-- The consumer has ended, and its side of the queue is closed. -/
def retire (t : ThreadPeer σ) (q : Segment) : ThreadPeer σ × Segment :=
  match q.close t.consumer.side with
  | (side, q) => ({ t with consumer := { t.consumer with side := side }, joined := true }, q)

/-- Waits for the consumer to end. The stream being complete, it does. -/
def wait (w : Writer σ) (t : ThreadPeer σ) (q : Segment) (s : Site) :
    Report × ThreadPeer σ × Segment × Site :=
  if t.joined then (.failed .peerGone, t, q, s)
  else
    match t.advance (·.settle w) q s with
    | (t, q, s) =>
      match t.retire q with
      | (t, q) => (t.consumer.report.getD (.failed .peerGone), t, q, s)

/-- Cancels the consumer and collects its counts. -/
def abort (w : Writer σ) (t : ThreadPeer σ) (q : Segment) (s : Site) :
    Option Counts × ThreadPeer σ × Segment × Site :=
  if t.joined then (none, t, q, s)
  else
    match t.proceed w q s with
    | (t, q, s) =>
      let cancelled := { t.consumer with token := t.consumer.token.request .cancelled }
      match { t with consumer := cancelled }.advance (·.settle w) q s with
      | (t, q, s) =>
        match t.retire q with
        | (t, q) => (t.consumer.report.map Report.counts, t, q, s)

/-- A thread as a peer. -/
def peer (w : Writer σ) : Peer (ThreadPeer σ) :=
  { proceed := proceed w
    isAlive := fun t => (!t.joined && t.consumer.report.isNone, t)
    wait := wait w
    abort := abort w }

end ThreadPeer

/-- A consumer that is a process of its own. -/
inductive ProcessPeer where
  | running (c : Consumer LocalWriter)
  /-- It has ended with this report, as it arrived. -/
  | ended (r : Report)
  /-- Its report has been collected. -/
  | collected

namespace ProcessPeer

/-- A report as it arrives: as text, and what stopped the consumer with
it. -/
def received (r : Report) : Report :=
  (Report.ofText? (Bytes.ofString r.toJson.text)).getD
    (.failed (.remote "consumer exited with exit status: 1"))

/-- What is reported of a process that ended without a report. -/
def mute (status : Nat) : ProcessPeer :=
  .ended (.failed (.remote ("consumer exited with exit status: " ++ toString status)))

/-- Starts a process that consumes. -/
def start (settings : ConsumerSettings) (s : Site) : ProcessPeer × Site :=
  match settings.build s with
  | (.ok w, s') => (.running { writer := w }, { s' with log := s.log })
  | (.error e, s') => (.ended (received (.failed e)), { s' with log := s.log })

/-- A process that has just been moved: it ends when its consumer does,
and lets go of its files. -/
def ofConsumption (c : Consumption LocalWriter) (log : List LogLine) :
    ProcessPeer × Segment × Site :=
  match c.consumer.report with
  | none => (.running c.consumer, c.queue, { c.site with log := log })
  | some r =>
    match c.consumer.writer.release c.site with
    | (_, site) => (.ended (received r), c.queue, { site with log := log })

/-- The consumer reads what is there. -/
def proceed (p : ProcessPeer) (q : Segment) (s : Site) : ProcessPeer × Segment × Site :=
  match p with
  | .running c => ofConsumption (Consumption.settle LocalWriter.writer ⟨c, q, s⟩) s.log
  | p => (p, q, s)

/-- Waits for the process to end. The stream being complete, it does. -/
def wait (p : ProcessPeer) (q : Segment) (s : Site) : Report × ProcessPeer × Segment × Site :=
  match p.proceed q s with
  | (.ended r, q, s) => (r, .collected, q, s)
  | (p, q, s) => (.failed .peerGone, p, q, s)

/-- Gives the process a while to end by itself, and kills it then: what it
has not written by then is lost. -/
def abort (p : ProcessPeer) (q : Segment) (s : Site) :
    Option Counts × ProcessPeer × Segment × Site :=
  match p.proceed q s with
  | (.ended r, q, s) => (some r.counts, .collected, q, s)
  | (.running _, q, s) =>
    (none, .collected, q, s.warn "consumer process did not stop; killing it")
  | (.collected, q, s) => (none, .collected, q, s)

/-- A process as a peer. -/
def peer : Peer ProcessPeer :=
  { proceed := proceed
    isAlive := fun p => (match p with | .running _ => true | _ => false, p)
    wait := wait
    abort := abort }

end ProcessPeer
end Intake
