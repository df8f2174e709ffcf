import Intake.Proofs.Writer.Course
import Intake.Writer.Peers
/-!
# Sending to a consumer on a thread

The writing side puts frames on a queue while a consumer on a thread
reads, as fast or as slowly as it likes (`ThreadPeer.pace`): each time the
writing side looks at the queue, or asks whether the consumer lives, the
consumer may have made any number of steps before.

What holds between two calls of the writing side is `Bound`: the consumer
stands somewhere in the stream of the rows sent so far. What holds once
its report has been collected is `Collected`, which nothing changes any
more. A send leads from the one to the same or to the other
(`Bound.sendFrom`), unless the writing side stops by itself.
-/

namespace Intake

open ParallelWriter

variable {σ : Type} {w : Writer σ}

/-- The calls of the writer behind a parallel writer. -/
def ParallelWriter.calls (x : ParallelWriter (ThreadPeer (σ × List Call))) : List Call :=
  x.peer.consumer.writer.2

/-! ## The consumer's turns -/

namespace ThreadPeer

variable {capacity : Nat} {sent : List Entry} {mark : Frame.Mark}
variable {t : ThreadPeer (σ × List Call)} {q : Segment}

theorem proceed_linked (hcap : 4 < capacity) (h : Linked capacity sent mark t.consumer q)
    (s : Site) :
    Linked capacity sent mark (t.proceed w.noting q s).1.consumer (t.proceed w.noting q s).2.1 ∧
      (t.proceed w.noting q s).1.joined = t.joined := by
  unfold proceed
  split
  · exact ⟨(Linked.settle (w := w) (c := ⟨t.consumer, q, s⟩) hcap h).1, rfl⟩
  · exact ⟨Linked.steps (w := w) (c := ⟨t.consumer, q, s⟩) hcap _ h, rfl⟩

/-- A consumer that has ended does nothing more. -/
theorem proceed_ended (h : t.consumer.report.isSome = true) (s : Site) :
    (t.proceed w.noting q s).1.consumer = t.consumer ∧
      (t.proceed w.noting q s).1.joined = t.joined := by
  have hnone : Consumption.step? w.noting ⟨t.consumer, q, s⟩ = none :=
    Consumption.step_of_report h
  unfold proceed
  split
  · refine ⟨?_, rfl⟩
    rw [advance, Consumption.settle, Consumption.steps_of_none _ hnone]
  · refine ⟨?_, rfl⟩
    rw [advance, Consumption.steps_of_none _ hnone]

/-- Waiting for a consumer gives the report it comes to when left to
itself. -/
theorem wait_report (hjoined : t.joined = false) {s : Site} {r : Report}
    (h : (Consumption.settle w.noting ⟨t.consumer, q, s⟩).consumer.report = some r) :
    (t.wait w.noting q s).1 = r ∧ (t.wait w.noting q s).2.1.joined = true ∧
      (t.wait w.noting q s).2.1.consumer.report = some r ∧
      (t.wait w.noting q s).2.1.consumer.writer
        = (Consumption.settle w.noting ⟨t.consumer, q, s⟩).consumer.writer := by
  unfold wait
  rw [hjoined, if_neg Bool.false_ne_true]
  refine ⟨?_, rfl, h, rfl⟩
  show Option.getD (Consumption.settle w.noting ⟨t.consumer, q, s⟩).consumer.report _ = r
  rw [h, Option.getD_some]

/-- A consumer that is told to stop has handed over a prefix of the rows. -/
theorem abort_prefix (hcap : 4 < capacity) (h : Linked capacity sent mark t.consumer q)
    (hjoined : t.joined = false) (s : Site) :
    Call.given (t.abort w.noting q s).2.1.consumer.writer.2 <+: sent := by
  obtain ⟨hlinked, _⟩ := proceed_linked (w := w) hcap h s
  obtain ⟨kind, hkind⟩ : ∃ kind,
      ((t.proceed w.noting q s).1.consumer.token.request .cancelled).pending = some kind :=
    Option.isSome_iff_exists.mp (Token.isTripped_request _ .cancelled)
  unfold abort
  rw [hjoined, if_neg Bool.false_ne_true]
  exact Linked.settle_tripped (w := w)
    (c := ⟨(t.proceed w.noting q s).1.consumer, (t.proceed w.noting q s).2.1, _⟩) hlinked hkind

end ThreadPeer

/-! ## Sending -/

/-- The writing side between two of its calls: it is open, it has not
collected the consumer's report, and the consumer stands in the stream of
what was sent. -/
structure Bound (capacity : Nat) (sent : List Entry) (mark : Frame.Mark) (closed : Bool)
    (x : ParallelWriter (ThreadPeer (σ × List Call))) : Prop where
  linked : Linked capacity sent mark x.peer.consumer x.queue
  joined : x.peer.joined = false
  unclosed : x.side.closed = false
  closed_eq : x.closed = closed

/-- The consumer's report has been collected. -/
structure Collected (calls : List Call) (counts : Counts) (closed : Bool)
    (x : ParallelWriter (ThreadPeer (σ × List Call))) : Prop where
  joined : x.peer.joined = true
  ended : x.peer.consumer.report.isSome = true
  calls_eq : x.calls = calls
  reported_eq : x.reported = counts
  closed_eq : x.closed = closed

/-- The writing side stops by itself: it is interrupted, or it gives up on
a consumer that lives and does not read. -/
inductive OwnStop (x : ParallelWriter (ThreadPeer (σ × List Call))) (s : Site) :
    WriterError → Prop where
  | interrupted (kind : Interrupt) (hpending : s.token.pending = some kind) :
    OwnStop x s (.queue (.interrupted kind))
  | stalled : OwnStop x s (.peerStalled x.maxStalls)

/-- Bytes that lead from some rows and a mark to others. -/
def Extends (σ : Type) (capacity : Nat) (sent : List Entry) (bs : Bytes) (sent' : List Entry)
    (mark' : Frame.Mark) : Prop :=
  ∀ (k : Consumer (σ × List Call)) (q : Segment), Linked capacity sent .more k q →
    bs.length ≤ q.free → Linked capacity sent' mark' k (q.store bs)

namespace Bound

variable {capacity : Nat} {sent sent' : List Entry} {mark mark' : Frame.Mark} {closed : Bool}
variable {x : ParallelWriter (ThreadPeer (σ × List Call))} {parts : List Bytes}

theorem yield (hcap : 4 < capacity) (h : Bound capacity sent mark closed x) (s : Site) :
    Bound capacity sent mark closed (x.yield (ThreadPeer.peer w.noting) s).1 := by
  obtain ⟨hlinked, hjoined⟩ := ThreadPeer.proceed_linked (w := w) hcap h.linked s
  exact ⟨hlinked, hjoined.trans h.joined, h.unclosed, h.closed_eq⟩

/-- What one attempt to put bytes on the queue may come to. -/
inductive Attempted (capacity : Nat) (sent sent' : List Entry) (mark' : Frame.Mark)
    (closed : Bool) : Except QueueError Bool × ParallelWriter (ThreadPeer (σ × List Call)) × Site →
    Prop where
  | done {x s} (h : Bound capacity sent' mark' closed x) :
    Attempted capacity sent sent' mark' closed (.ok true, x, s)
  | full {x s} (h : Bound capacity sent .more closed x) :
    Attempted capacity sent sent' mark' closed (.ok false, x, s)
  | interrupted {x s} (h : Bound capacity sent .more closed x) (kind : Interrupt)
    (hpending : s.token.pending = some kind) :
    Attempted capacity sent sent' mark' closed (.error (.interrupted kind), x, s)

theorem attempt (hcap : 4 < capacity) (hsmall : parts.flatten.length < capacity)
    (hext : Extends σ capacity sent parts.flatten sent' mark')
    (h : Bound capacity sent .more closed x) (s : Site) :
    Attempted capacity sent sent' mark' closed
      (x.attempt (ThreadPeer.peer w.noting) parts s) := by
  have hyield := h.yield (w := w) hcap s
  obtain ⟨y, s', hy⟩ : ∃ y s', x.yield (ThreadPeer.peer w.noting) s = (y, s') := ⟨_, _, rfl⟩
  rw [hy] at hyield
  dsimp only at hyield
  have hsmall' : parts.flatten.length < y.queue.capacity := by
    rw [hyield.linked.capacity_eq]
    exact hsmall
  unfold ParallelWriter.attempt
  rw [hy]
  dsimp only
  cases hpending : s'.token.pending with
  | some kind =>
    rw [Segment.write_of_tripped hyield.unclosed hpending hsmall']
    exact .interrupted hyield kind hpending
  | none =>
    by_cases hroom : parts.flatten.length ≤ y.queue.free
    · rw [Segment.write_of_fits hyield.linked.round hyield.unclosed hpending hroom]
      exact .done ⟨hext _ _ hyield.linked hroom, hyield.joined, hyield.unclosed, hyield.closed_eq⟩
    · rw [Segment.write_of_full hyield.unclosed hpending hsmall' hroom]
      exact .full hyield

theorem offer (hcap : 4 < capacity) (hsmall : parts.flatten.length < capacity)
    (hext : Extends σ capacity sent parts.flatten sent' mark')
    (h : Bound capacity sent .more closed x) (s : Site) :
    Attempted capacity sent sent' mark' closed
      (x.offer (ThreadPeer.peer w.noting) parts s) := by
  have hfirst := h.attempt (w := w) hcap hsmall hext s
  unfold ParallelWriter.offer
  generalize x.attempt (ThreadPeer.peer w.noting) parts s = r at hfirst
  cases hfirst with
  | done hdone => exact .done hdone
  | full hfull => exact hfull.attempt hcap hsmall hext _
  | interrupted hbound kind hpending => exact .interrupted hbound kind hpending

/-- The report that a consumer comes to when left to itself is collected. -/
theorem collect (h : Bound capacity sent mark closed x) {s : Site} {r : Report}
    (hreport : (Consumption.settle w.noting ⟨x.peer.consumer, x.queue, s⟩).consumer.report
      = some r) :
    ∃ y s', x.collect (ThreadPeer.peer w.noting) s = (r.result, y, s') ∧
      Collected (Consumption.settle w.noting ⟨x.peer.consumer, x.queue, s⟩).consumer.writer.2
        r.counts closed y := by
  obtain ⟨hr, hjoined, hended, hwriter⟩ := ThreadPeer.wait_report h.joined hreport
  refine ⟨(x.collect (ThreadPeer.peer w.noting) s).2.1, _,
    Prod.ext (congrArg Report.result hr) rfl, hjoined, ?_, congrArg Prod.snd hwriter,
    congrArg Report.counts hr, h.closed_eq⟩
  show (ThreadPeer.wait w.noting x.peer x.queue s).2.1.consumer.report.isSome = true
  rw [hended]
  rfl

/-- Before the end of the stream a consumer ends only because its writer
has refused a row. -/
theorem consumerGone (h : Bound capacity sent .more closed x)
    (hended : x.peer.consumer.report.isSome = true) (s : Site) :
    ∃ before after entry e last y s', sent = before ++ entry :: after ∧
      x.consumerGone (ThreadPeer.peer w.noting) s = (.error e, y, s') ∧
      Collected (Call.taken before ++ [.insert entry (.error e), .close true last])
        (reached last) closed y := by
  have hstay : Consumption.settle w.noting ⟨x.peer.consumer, x.queue, s⟩
      = ⟨x.peer.consumer, x.queue, s⟩ :=
    Consumption.steps_of_none _ (Consumption.step_of_report hended)
  cases h.linked.course with
  | reading before ahead hsent hcalls hread =>
    rw [hread.going] at hended
    cases hended
  | closed hend => cases hend
  | refused before after entry e last hsent hcalls hreport =>
    have hsettled : (Consumption.settle w.noting
        ⟨x.peer.consumer, x.queue, s⟩).consumer.report = some ⟨reached last, some e⟩ := by
      rw [hstay]
      exact hreport
    obtain ⟨y, s', hcollect, hcollected⟩ := h.collect hsettled
    rw [hstay] at hcollected
    dsimp only at hcollected
    rw [hcalls] at hcollected
    refine ⟨before, after, entry, e, last, y, s', hsent, ?_, hcollected⟩
    rw [ParallelWriter.consumerGone, hcollect]
    rfl

/-- What putting bytes on the queue may come to. -/
inductive Sent (capacity : Nat) (sent sent' : List Entry) (mark' : Frame.Mark) (closed : Bool) :
    Except WriterError Unit × ParallelWriter (ThreadPeer (σ × List Call)) × Site → Prop where
  | done {x s} (h : Bound capacity sent' mark' closed x) :
    Sent capacity sent sent' mark' closed (.ok (), x, s)
  | stopped {x s} (h : Bound capacity sent .more closed x) (e : WriterError)
    (cause : OwnStop x s e) : Sent capacity sent sent' mark' closed (.error e, x, s)
  | refused {x s} (before after : List Entry) (entry : Entry) (e : WriterError)
    (last : Except WriterError Counts) (hsent : sent = before ++ entry :: after)
    (h : Collected (Call.taken before ++ [.insert entry (.error e), .close true last])
      (reached last) closed x) : Sent capacity sent sent' mark' closed (.error e, x, s)

theorem sendFrom (hcap : 4 < capacity) (hsmall : parts.flatten.length < capacity)
    (hext : Extends σ capacity sent parts.flatten sent' mark') (left : Nat)
    (h : Bound capacity sent .more closed x) (s : Site) :
    Sent capacity sent sent' mark' closed
      (ParallelWriter.sendFrom (ThreadPeer.peer w.noting) parts left x s) := by
  induction left generalizing x s with
  | zero => exact .stopped h _ .stalled
  | succ left ih =>
    have hoffer := h.offer (w := w) hcap hsmall hext s
    unfold ParallelWriter.sendFrom
    generalize x.offer (ThreadPeer.peer w.noting) parts s = r at hoffer
    cases hoffer with
    | done hdone => exact .done hdone
    | interrupted hbound kind hpending => exact .stopped hbound _ (.interrupted kind hpending)
    | @full y s' hfull =>
      have hyield := hfull.yield (w := w) hcap s'
      dsimp only
      generalize y.yield (ThreadPeer.peer w.noting) s' = yielded at hyield
      obtain ⟨z, s''⟩ := yielded
      dsimp only at hyield ⊢
      cases hreport : z.peer.consumer.report with
      | some r =>
        have hgone : (ThreadPeer.peer w.noting).isAlive z.peer = (false, z.peer) := by
          show (!z.peer.joined && z.peer.consumer.report.isNone, z.peer) = _
          rw [hreport, Option.isNone_some, Bool.and_false]
        rw [hgone]
        obtain ⟨before, after, entry, e, last, v, s3, hsent, hresult, hcollected⟩ :=
          hyield.consumerGone (w := w) (by rw [hreport]; rfl) s''
        dsimp only
        rw [hresult]
        exact .refused before after entry e last hsent hcollected
      | none =>
        have halive : (ThreadPeer.peer w.noting).isAlive z.peer = (true, z.peer) := by
          show (!z.peer.joined && z.peer.consumer.report.isNone, z.peer) = _
          rw [hreport, hyield.joined]
          rfl
        rw [halive]
        exact ih hyield _

/-- A row goes onto the queue as its frame. -/
theorem insert (hcap : 4 < capacity) {entry : Entry} (hfits : Frame.Fits capacity entry)
    (h : Bound capacity sent .more false x) (s : Site) :
    Sent capacity sent (sent ++ [entry]) .more false
      (x.insert (ThreadPeer.peer w.noting) entry.1 entry.2 s) := by
  have hparts : [Frame.lengthBytes (Frame.encode entry.1 entry.2).length,
      Frame.encode entry.1 entry.2].flatten = Frame.framed entry := by
    rw [List.flatten_cons, List.flatten_cons, List.flatten_nil, List.append_nil, Frame.framed]
  have hsmall : (Frame.framed entry).length < capacity := by
    have := hfits.1
    rw [Frame.framed, List.length_append, Frame.length_lengthBytes]
    exact this
  unfold ParallelWriter.insert
  rw [h.closed_eq, if_neg Bool.false_ne_true]
  dsimp only
  rw [if_neg (Nat.not_le_of_lt hfits.2), ParallelWriter.send]
  refine h.sendFrom hcap ?_ ?_ _ s
  · rw [hparts]
    exact hsmall
  · intro k q hlinked hroom
    rw [hparts] at hroom ⊢
    exact hlinked.push hfits hroom

/-- The end of the stream goes onto the queue as its mark. -/
theorem terminate (hcap : 4 < capacity) (h : Bound capacity sent .more closed x) (s : Site) :
    Sent capacity sent sent .finish closed
      (x.send (ThreadPeer.peer w.noting) [Frame.lengthBytes Frame.terminator] s) := by
  have hparts : [Frame.lengthBytes Frame.terminator].flatten = Frame.Mark.finish.bytes := by
    rw [List.flatten_singleton, Frame.Mark.bytes]
  refine h.sendFrom hcap ?_ ?_ _ s
  · rw [hparts, Frame.Mark.bytes, Frame.length_lengthBytes]
    exact hcap
  · intro k q hlinked hroom
    rw [hparts] at hroom ⊢
    exact hlinked.mark .finish hroom

end Bound

/-! ## After the report -/

namespace Collected

variable {calls : List Call} {counts : Counts} {closed : Bool}
variable {x : ParallelWriter (ThreadPeer (σ × List Call))}

theorem release (h : Collected calls counts closed x) (s : Site) :
    x.release (ThreadPeer.peer w.noting) s = (x, s) := by
  have habort : (ThreadPeer.peer w.noting).abort x.peer x.queue s
      = (none, x.peer, x.queue, s) := by
    show ThreadPeer.abort w.noting x.peer x.queue s = _
    rw [ThreadPeer.abort, h.joined, if_pos rfl]
  rw [ParallelWriter.release, habort]
  rfl

theorem closeQueue (h : Collected calls counts closed x) :
    Collected calls counts closed x.closeQueue :=
  ⟨h.joined, h.ended, h.calls_eq, h.reported_eq, h.closed_eq⟩

theorem attempt (h : Collected calls counts closed x) (parts : List Bytes) (s : Site) :
    Collected calls counts closed (x.attempt (ThreadPeer.peer w.noting) parts s).2.1 := by
  obtain ⟨hconsumer, hjoined⟩ := ThreadPeer.proceed_ended (w := w) (q := x.queue) h.ended s
  refine ⟨hjoined.trans h.joined, ?_, ?_, h.reported_eq, h.closed_eq⟩
  · show (ThreadPeer.proceed w.noting x.peer x.queue s).1.consumer.report.isSome = true
    rw [hconsumer]
    exact h.ended
  · show (ThreadPeer.proceed w.noting x.peer x.queue s).1.consumer.writer.2 = calls
    rw [hconsumer]
    exact h.calls_eq

theorem offer (h : Collected calls counts closed x) (parts : List Bytes) (s : Site) :
    Collected calls counts closed (x.offer (ThreadPeer.peer w.noting) parts s).2.1 := by
  have hfirst := h.attempt (w := w) parts s
  unfold ParallelWriter.offer
  generalize x.attempt (ThreadPeer.peer w.noting) parts s = r at hfirst
  obtain ⟨outcome, y, s'⟩ := r
  split
  next heq =>
    cases heq
    exact Collected.attempt hfirst parts _
  next => exact hfirst

/-- Closing in error mode tells the counts once more, and asks nothing more
of the consumer's writer. -/
theorem close (h : Collected calls counts closed x) (s : Site) :
    (x.close (ThreadPeer.peer w.noting) true s).1 = .ok counts ∧
      (x.close (ThreadPeer.peer w.noting) true s).2.1.calls = calls := by
  unfold ParallelWriter.close
  cases closed with
  | true =>
    rw [h.closed_eq, if_pos rfl]
    exact ⟨congrArg Except.ok h.reported_eq, h.calls_eq⟩
  | false =>
    rw [h.closed_eq, if_neg Bool.false_ne_true]
    dsimp only
    rw [if_pos rfl]
    have hmarked : Collected calls counts true { x with closed := true } :=
      ⟨h.joined, h.ended, h.calls_eq, h.reported_eq, rfl⟩
    have hoffer := hmarked.offer (w := w) [Frame.lengthBytes Frame.abortMark] s
    unfold ParallelWriter.abandon
    generalize ParallelWriter.offer (ThreadPeer.peer w.noting) { x with closed := true }
      [Frame.lengthBytes Frame.abortMark] s = r at hoffer
    obtain ⟨outcome, y, s'⟩ := r
    dsimp only at hoffer ⊢
    rw [hoffer.release]
    exact ⟨congrArg Except.ok hoffer.reported_eq, hoffer.closeQueue.calls_eq⟩

end Collected

end Intake
