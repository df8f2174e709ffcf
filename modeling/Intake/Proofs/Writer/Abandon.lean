import Intake.Proofs.Writer.Session
/-!
# Telling a consumer to give up

A writer that is closed in error mode puts a mark on the queue after the
rows, and a consumer that reads on to it gives up. The mark goes the way
of every write, so it goes out exactly if the writer's own token is not
tripped: a load that stops for any other reason tells its consumer, and
one that was interrupted does not. Its consumer hands over the rows that
are there and waits for more.

**What is not settled here.** What the peer makes of a consumer that goes
on waiting (`Peer.abort`) is its own affair; the queue is as it is when
the peer is asked.
-/

namespace Intake

open ParallelWriter

variable {σ π : Type}

/-- A queue of a writer that is closed in error mode: marked, unless the
writer's token is tripped. -/
def Segment.marked (q : Segment) (token : Token) : Segment :=
  if token.isTripped then q else q.store Frame.Mark.abandon.bytes

theorem Segment.contents_marked_iff {q : Segment} {token : Token} (hq : q.Round)
    (hroom : 4 ≤ q.free) :
    (q.marked token).contents = q.contents ++ Frame.lengthBytes Frame.abortMark ↔
      token.isTripped = false := by
  have hmark : Frame.Mark.abandon.bytes.length = 4 := rfl
  rw [marked]
  cases htoken : token.isTripped with
  | false =>
    rw [if_neg Bool.false_ne_true, contents_store hq (by omega)]
    exact ⟨fun _ => rfl, fun _ => rfl⟩
  | true =>
    rw [if_pos rfl]
    constructor
    · intro hsame
      have hlen := congrArg List.length hsame
      rw [List.length_append, Frame.length_lengthBytes] at hlen
      omega
    · intro hfalse
      cases hfalse

/-- The mark is offered once: where there is room, either it is taken or
the writer's token is tripped. -/
theorem ParallelWriter.offer_mark (p : Peer π) {x y : ParallelWriter π} {s s' : Site}
    (hyield : x.yield p s = (y, s')) (hside : y.side.closed = false) (hround : y.queue.Round)
    (hroom : 4 ≤ y.queue.free) :
    (x.offer p [Frame.lengthBytes Frame.abortMark] s).2
      = ({ y with queue := y.queue.marked s'.token }, s') := by
  have hflat : [Frame.lengthBytes Frame.abortMark].flatten = Frame.Mark.abandon.bytes := by
    rw [List.flatten_singleton, Frame.Mark.bytes]
  have hfree := hround.free_eq
  have hsmall : Frame.Mark.abandon.bytes.length ≤ y.queue.free := hroom
  unfold offer attempt
  rw [hyield]
  dsimp only
  cases hpending : s'.token.pending with
  | none =>
    have hcalm : s'.token.isTripped = false := by
      rw [Token.isTripped, hpending]
      rfl
    rw [Segment.write_of_fits hround hside hpending (by rw [hflat]; exact hsmall), hflat,
      Segment.marked, hcalm, if_neg Bool.false_ne_true]
  | some kind =>
    have htripped : s'.token.isTripped = true := by
      rw [Token.isTripped, hpending]
      rfl
    rw [Segment.write_of_tripped hside hpending (by rw [hflat]; omega), Segment.marked, htripped, if_pos rfl]

/-- What comes of a consumer that is left to itself behind a writer closed
in error mode, whose token was tripped or not. -/
inductive Outlook (w : Writer σ) (sent : List Entry) (tripped : Bool)
    (c : Consumption (σ × List Call)) : Prop where
  /-- It has given up because of the mark, having handed over all rows. -/
  | abandoned (last : Except WriterError Counts) (htripped : tripped = false)
    (hcalls : c.consumer.writer.2 = Call.taken sent ++ [.close true last])
    (hreport : c.consumer.report
      = some ⟨reached last, some (.remote "load aborted by the producer")⟩)
  /-- It has handed over all rows and waits for more. -/
  | waiting (htripped : tripped = true) (hcalls : c.consumer.writer.2 = Call.taken sent)
    (hgoing : c.consumer.report = none) (hstep : c.step? w.noting = none)
  /-- Its writer has refused a row. -/
  | refused (before after : List Entry) (entry : Entry) (e : WriterError)
    (last : Except WriterError Counts) (hsent : sent = before ++ entry :: after)
    (hcalls : c.consumer.writer.2
      = Call.taken before ++ [.insert entry (.error e), .close true last])
    (hreport : c.consumer.report = some ⟨reached last, some e⟩)

section Outlook

variable {capacity : Nat} {sent : List Entry} {w : Writer σ}
variable {k : Consumer (σ × List Call)} {q : Segment}

/-- A consumer that finds the mark gives up. -/
theorem Linked.outlook_marked (hcap : 4 < capacity) (h : Linked capacity sent .abandon k q)
    (s : Site) : Outlook w sent false (Consumption.settle w.noting ⟨k, q, s⟩) := by
  obtain ⟨hlinked, _, hended⟩ := Linked.settle (w := w) (c := ⟨k, q, s⟩) hcap h
  cases hlinked.course with
  | reading before ahead _ _ hread =>
    rw [hread.going] at hended
    rcases hended with hnone | ⟨hmark, _⟩
    · cases hnone
    · cases hmark
  | refused before after entry e last hsent hcalls hreport =>
    exact .refused before after entry e last hsent hcalls hreport
  | closed hend =>
    cases hend with
    | abandoned last hcalls hreport => exact .abandoned last rfl hcalls hreport

/-- A consumer that finds no mark waits. -/
theorem Linked.outlook_unmarked (hcap : 4 < capacity) (h : Linked capacity sent .more k q)
    (s : Site) : Outlook w sent true (Consumption.settle w.noting ⟨k, q, s⟩) := by
  obtain ⟨hlinked, hnone, hended⟩ := Linked.settle (w := w) (c := ⟨k, q, s⟩) hcap h
  cases hlinked.course with
  | reading before ahead _ _ hread =>
    have hgoing := hread.going
    rw [hgoing] at hended
    rcases hended with hreport | ⟨_, hcalls⟩
    · cases hreport
    · exact .waiting rfl hcalls hgoing hnone
  | refused before after entry e last hsent hcalls hreport =>
    exact .refused before after entry e last hsent hcalls hreport
  | closed hend => cases hend

theorem Linked.outlook (h : Linked capacity sent .more k q) (hroom : 4 ≤ q.free) (token : Token)
    (s : Site) :
    Outlook w sent token.isTripped (Consumption.settle w.noting ⟨k, q.marked token, s⟩) := by
  have hcap : 4 < capacity := by
    have hfree := h.round.free_eq
    rw [h.capacity_eq] at hfree
    omega
  rw [Segment.marked]
  cases token.isTripped with
  | false =>
    rw [if_neg Bool.false_ne_true]
    exact (h.mark .abandon hroom).outlook_marked hcap s
  | true =>
    rw [if_pos rfl]
    exact h.outlook_unmarked hcap s

end Outlook

/-- **When a consumer is told to give up.** A writer that is not closed,
and whose queue has room for the mark once its consumer has had a chance
to read, is closed in error mode. The rows on the queue stay, the mark
follows them exactly if the writer's token is not tripped, and the peer is
asked to stop its consumer with the queue as it is then. -/
theorem close_error_marked (p : Peer π) {x y : ParallelWriter π} {s s' : Site}
    (hopen : x.closed = false) (hyield : { x with closed := true }.yield p s = (y, s'))
    (hside : x.side.closed = false) (hroom : 4 ≤ y.queue.free) {capacity : Nat}
    {sent : List Entry} (w : Writer σ) {k : Consumer (σ × List Call)}
    (hlinked : Linked capacity sent .more k y.queue) :
    x.close p true s
      = (match { y with queue := y.queue.marked s'.token }.release p s' with
        | (z, s'') => (.ok z.reported, z.closeQueue, s'')) ∧
    ((y.queue.marked s'.token).contents
        = y.queue.contents ++ Frame.lengthBytes Frame.abortMark ↔
      s'.token.isTripped = false) ∧
    (s'.token.isTripped = true → y.queue.marked s'.token = y.queue) ∧
    ∀ site, Outlook w sent s'.token.isTripped
      (Consumption.settle w.noting ⟨k, y.queue.marked s'.token, site⟩) := by
  have hround := hlinked.round
  have hsame : y.side = x.side := (congrArg (fun r => r.1.side) hyield).symm
  refine ⟨?_, Segment.contents_marked_iff hround hroom, ?_, hlinked.outlook hroom s'.token⟩
  · have hoffer := ParallelWriter.offer_mark p hyield (hsame ▸ hside) hround hroom
    unfold close
    rw [hopen, if_neg Bool.false_ne_true]
    dsimp only
    rw [if_pos rfl]
    unfold abandon
    generalize offer p { x with closed := true } [Frame.lengthBytes Frame.abortMark] s = r at hoffer
    obtain ⟨outcome, z, s''⟩ := r
    dsimp only at hoffer
    cases hoffer
    rfl
  · intro htripped
    rw [Segment.marked, htripped, if_pos rfl]

/-- A consumer that is somewhere else: nothing of what it does shows, and
it cannot be stopped. -/
def distant : Peer Unit where
  proceed := fun _ q s => ((), q, s)
  isAlive := fun _ => (true, ())
  wait := fun _ q s => (.failed .peerGone, (), q, s)
  abort := fun _ q s => (none, (), q, s)

/-- A row of two columns. -/
def lone : Entry := (.ofValues [.int64 1, .text [97]], [49, 44, 97, 10])

/-- A writer that has put that row on its queue. -/
def laden : ParallelWriter Unit :=
  (ParallelWriter.insert distant
    (.start { key := 7, capacity := 256, producer := 1 } () 20 3) lone.1 lone.2 {}).2.1

theorem linked_laden : Linked 256 [lone] .more
    ({ writer := (keyedTable, []) } : Consumer (LocalWriter × List Call)) laden.queue := by
  have hcontents : laden.queue.contents = Frame.stream [lone] ++ Frame.Mark.more.bytes := by
    decide +kernel
  refine ⟨⟨by decide +kernel, by decide +kernel, by decide +kernel, by decide +kernel⟩,
    by decide +kernel, .reading [] [lone] rfl rfl ?_⟩
  refine ⟨by decide +kernel, rfl, rfl, rfl, by decide, ?_⟩
  rw [hcontents]
  exact .between [lone]

/-- Whether that row's consumer gives up or waits is up to the token. -/
theorem close_error_marked_laden :
    laden.closed = false ∧ laden.side.closed = false ∧ 4 ≤ laden.queue.free ∧
      ∀ token : Token, ∀ site, Outlook LocalWriter.writer [lone] token.isTripped
        (Consumption.settle LocalWriter.writer.noting
          ⟨{ writer := (keyedTable, []) }, laden.queue.marked token, site⟩) := by
  have hopen : laden.closed = false := by decide +kernel
  have hside : laden.side.closed = false := by decide +kernel
  have hroom : 4 ≤ laden.queue.free := by decide +kernel
  refine ⟨hopen, hside, hroom, ?_⟩
  intro token
  exact (close_error_marked distant (s := { token := token }) hopen rfl hside hroom
    LocalWriter.writer linked_laden).2.2.2

/-- A row is on the queue, there is room for the mark, and the writer's
token has been tripped: closing in error mode does not mark the end, and a
consumer that reads on is left waiting. -/
theorem close_error_unmarked :
    laden.closed = false ∧ laden.side.closed = false ∧
      laden.queue.contents = Frame.framed lone ∧ 4 ≤ laden.queue.free ∧
      (laden.close distant true { token := ⟨some .cancelled⟩ }).2.1.queue.contents
        = laden.queue.contents ∧
      (Consumption.settle LocalWriter.writer
        ⟨{ writer := keyedTable },
          (laden.close distant true { token := ⟨some .cancelled⟩ }).2.1.queue,
          {}⟩).consumer.report = none := by
  refine ⟨by decide +kernel, by decide +kernel, by decide +kernel, by decide +kernel,
    by decide +kernel, by decide +kernel⟩

end Intake
