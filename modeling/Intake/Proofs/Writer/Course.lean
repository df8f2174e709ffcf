import Intake.Proofs.Queue.Stream
import Intake.Writer.Consumer
/-!
# The course of a consumer

What a consumer does depends on where it stands in the stream of frames
and on what its writer answers, and on nothing else. The writer is any
writer, with every call of it noted.

One lemma carries the development (`Linked.advance`): a consumer whose
queue carries the rest of a stream either has ended, or has read all
there is, or makes one step, after which its queue carries the rest of
the same stream. Its calls are then those of a prefix of the rows, in
their order, however its steps fall among those of the writing side.
-/

namespace Intake

/-! ## Calls of a writer -/

/-- What a writer was asked, and what it answered. -/
inductive Call where
  | insert (entry : Entry) (outcome : Except WriterError Unit)
  | close (onError : Bool) (outcome : Except WriterError Counts)

namespace Call

/-- The row that a call hands over. -/
def entry? : Call → Option Entry
  | .insert entry _ => some entry
  | .close _ _ => none

/-- The rows that a writer was given, in order. -/
def given (calls : List Call) : List Entry := calls.filterMap entry?

/-- The calls of a writer that took all of some rows. -/
def taken (entries : List Entry) : List Call := entries.map fun entry => .insert entry (.ok ())

theorem taken_append (xs ys : List Entry) : taken (xs ++ ys) = taken xs ++ taken ys :=
  List.map_append

theorem given_append (xs ys : List Call) : given (xs ++ ys) = given xs ++ given ys :=
  List.filterMap_append

theorem given_taken (entries : List Entry) : given (taken entries) = entries := by
  induction entries with
  | nil => rfl
  | cons entry entries ih => exact congrArg (entry :: ·) ih

/-- Closing a writer gives it no row. -/
theorem given_closed (calls : List Call) (onError : Bool) (last : Except WriterError Counts) :
    given (calls ++ [.close onError last]) = given calls :=
  (given_append ..).trans (List.append_nil _)

theorem given_taken_closed {entries : List Entry} {calls : List Call} (h : given calls = []) :
    given (taken entries ++ calls) = entries := by
  rw [given_append, given_taken, h, List.append_nil]

/-- A row that is refused has been given. -/
theorem given_refused_prefix {sent before after : List Entry} {entry : Entry}
    (hsent : sent = before ++ entry :: after) (outcome : Except WriterError Unit)
    (last : Except WriterError Counts) :
    given (taken before ++ [.insert entry outcome, .close true last]) <+: sent := by
  rw [given_append, given_taken, hsent]
  exact ⟨after, List.append_assoc before [entry] after⟩

end Call

/-- The same writer, with its calls noted. -/
def Writer.noting {σ : Type} (w : Writer σ) : Writer (σ × List Call) where
  insert := fun (st, calls) row raw s =>
    match w.insert st row raw s with
    | (outcome, st, s) => (outcome, (st, calls ++ [.insert (row, raw) outcome]), s)
  close := fun (st, calls) onError s =>
    match w.close st onError s with
    | (outcome, st, s) => (outcome, (st, calls ++ [.close onError outcome]), s)

namespace Writer

variable {σ : Type} {w : Writer σ} {x : σ × List Call} {s s' : Site} {st : σ}

theorem noting_insert {row : Row} {raw : Bytes} {outcome : Except WriterError Unit}
    (h : w.insert x.1 row raw s = (outcome, st, s')) :
    w.noting.insert x row raw s = (outcome, (st, x.2 ++ [.insert (row, raw) outcome]), s') := by
  show (match w.insert x.1 row raw s with
    | (outcome, st, s) => (outcome, (st, x.2 ++ [Call.insert (row, raw) outcome]), s)) = _
  rw [h]

theorem noting_close {onError : Bool} {outcome : Except WriterError Counts}
    (h : w.close x.1 onError s = (outcome, st, s')) :
    w.noting.close x onError s = (outcome, (st, x.2 ++ [.close onError outcome]), s') := by
  show (match w.close x.1 onError s with
    | (outcome, st, s) => (outcome, (st, x.2 ++ [Call.close onError outcome]), s)) = _
  rw [h]

end Writer

/-- The counts that a writer closed in error mode had reached, as far as
it says. -/
def reached : Except WriterError Counts → Counts
  | .ok counts => counts
  | .error _ => {}

/-! ## Where a consumer stands -/

variable {σ : Type}

/-- A consumer that is reading: its queue carries the rows ahead of it and
then a mark. -/
structure Reading (capacity : Nat) (mark : Frame.Mark) (ahead : List Entry)
    (k : Consumer (σ × List Call)) (q : Segment) : Prop where
  lives : q.producerLives = true
  unclosed : k.side.closed = false
  calm : k.token.pending = none
  going : k.report = none
  fits : ∀ entry ∈ ahead, Frame.Fits capacity entry
  carries : Frame.Ahead mark ahead k.body q.contents

/-- How a consumer ends that has handed over all rows, by the mark after
them. -/
inductive Closing (sent : List Entry) (calls : List Call) (report : Option Report) :
    Frame.Mark → Prop where
  /-- It has closed its writer. -/
  | complete (counts : Counts) (hcalls : calls = Call.taken sent ++ [.close false (.ok counts)])
    (hreport : report = some ⟨counts, none⟩) : Closing sent calls report .finish
  /-- Its writer has failed when it was closed. -/
  | unfinished (e : WriterError) (last : Except WriterError Counts)
    (hcalls : calls = Call.taken sent ++ [.close false (.error e), .close true last])
    (hreport : report = some ⟨reached last, some e⟩) : Closing sent calls report .finish
  /-- It has been told to give up. -/
  | abandoned (last : Except WriterError Counts)
    (hcalls : calls = Call.taken sent ++ [.close true last])
    (hreport : report = some ⟨reached last, some (.remote "load aborted by the producer")⟩) :
    Closing sent calls report .abandon

/-- How far a consumer has come with the rows of a stream, by the calls
of its writer. -/
inductive Course (capacity : Nat) (sent : List Entry) (mark : Frame.Mark)
    (k : Consumer (σ × List Call)) (q : Segment) : Prop where
  /-- It has handed over some rows and reads on. -/
  | reading (before ahead : List Entry) (hsent : sent = before ++ ahead)
    (hcalls : k.writer.2 = Call.taken before) (hread : Reading capacity mark ahead k q)
  /-- Its writer has refused a row. -/
  | refused (before after : List Entry) (entry : Entry) (e : WriterError)
    (last : Except WriterError Counts) (hsent : sent = before ++ entry :: after)
    (hcalls : k.writer.2
      = Call.taken before ++ [.insert entry (.error e), .close true last])
    (hreport : k.report = some ⟨reached last, some e⟩)
  /-- It has handed over all rows and come to the mark. -/
  | closed (hend : Closing sent k.writer.2 k.report mark)

/-- A consumer and the queue between it and the writing side, which has
sent some rows and then a mark. -/
structure Linked (capacity : Nat) (sent : List Entry) (mark : Frame.Mark)
    (k : Consumer (σ × List Call)) (q : Segment) : Prop where
  round : q.Round
  capacity_eq : q.capacity = capacity
  course : Course capacity sent mark k q

theorem Closing.given_eq {sent : List Entry} {calls : List Call} {report : Option Report}
    {mark : Frame.Mark} (h : Closing sent calls report mark) : Call.given calls = sent := by
  cases h with
  | complete counts hcalls _ =>
    rw [hcalls]
    exact Call.given_taken_closed rfl
  | unfinished e last hcalls _ =>
    rw [hcalls]
    exact Call.given_taken_closed rfl
  | abandoned last hcalls _ =>
    rw [hcalls]
    exact Call.given_taken_closed rfl

theorem Closing.ended {sent : List Entry} {calls : List Call} {report : Option Report}
    {mark : Frame.Mark} (h : Closing sent calls report mark) : report.isSome = true := by
  cases h with
  | complete _ _ hreport => exact hreport ▸ rfl
  | unfinished _ _ _ hreport => exact hreport ▸ rfl
  | abandoned _ _ hreport => exact hreport ▸ rfl

/-- Whatever a consumer has done, its writer was given a prefix of the
rows. -/
theorem Course.given_prefix {capacity : Nat} {sent : List Entry} {mark : Frame.Mark}
    {k : Consumer (σ × List Call)} {q : Segment} (h : Course capacity sent mark k q) :
    Call.given k.writer.2 <+: sent := by
  cases h with
  | reading before ahead hsent hcalls _ =>
    rw [hcalls, Call.given_taken, hsent]
    exact List.prefix_append before ahead
  | refused before after entry e last hsent hcalls _ =>
    rw [hcalls]
    exact Call.given_refused_prefix hsent _ _
  | closed hend => exact ⟨[], (List.append_nil _).trans hend.given_eq⟩

/-- A consumer that has just been started on a new queue. -/
theorem Linked.start (st : σ) (key producer : Nat) {capacity : Nat} (h : 2 ≤ capacity) :
    ∃ q, Segment.create key producer capacity = .ok q ∧
      Linked capacity [] .more ({ writer := (st, []) } : Consumer (σ × List Call)) q := by
  obtain ⟨q, hq, hround, hcapacity, hempty⟩ := Segment.round_create key producer h
  have hlives : q.producerLives = true := by
    rw [Segment.create, if_neg (by omega)] at hq
    cases hq
    rfl
  refine ⟨q, hq, hround, hcapacity, .reading [] [] rfl rfl ?_⟩
  refine ⟨hlives, rfl, rfl, rfl, (fun _ hmem => absurd hmem List.not_mem_nil), ?_⟩
  rw [hempty]
  exact .between []

/-- A row more on the queue. -/
theorem Linked.push {capacity : Nat} {sent : List Entry} {k : Consumer (σ × List Call)}
    {q : Segment} {entry : Entry} (hfits : Frame.Fits capacity entry)
    (h : Linked capacity sent .more k q) (hroom : (Frame.framed entry).length ≤ q.free) :
    Linked capacity (sent ++ [entry]) .more k (q.store (Frame.framed entry)) := by
  refine ⟨h.round.store _, h.capacity_eq, ?_⟩
  cases h.course with
  | reading before ahead hsent hcalls hread =>
    refine .reading before (ahead ++ [entry]) ?_ hcalls ?_
    · rw [hsent, List.append_assoc]
    · refine ⟨hread.lives, hread.unclosed, hread.calm, hread.going, ?_, ?_⟩
      · intro other hother
        rcases List.mem_append.mp hother with hold | hnew
        · exact hread.fits other hold
        · rw [List.mem_singleton.mp hnew]
          exact hfits
      · rw [Segment.contents_store h.round hroom]
        exact hread.carries.push entry
  | refused before after first e last hsent hcalls hreport =>
    refine .refused before (after ++ [entry]) first e last ?_ hcalls hreport
    rw [hsent, List.append_assoc, List.cons_append]
  | closed hend => cases hend

/-- A mark on the queue, after which nothing comes. -/
theorem Linked.mark {capacity : Nat} {sent : List Entry} {k : Consumer (σ × List Call)}
    {q : Segment} (mark : Frame.Mark) (h : Linked capacity sent .more k q)
    (hroom : mark.bytes.length ≤ q.free) :
    Linked capacity sent mark k (q.store mark.bytes) := by
  refine ⟨h.round.store _, h.capacity_eq, ?_⟩
  cases h.course with
  | reading before ahead hsent hcalls hread =>
    refine .reading before ahead hsent hcalls ?_
    refine ⟨hread.lives, hread.unclosed, hread.calm, hread.going, hread.fits, ?_⟩
    rw [Segment.contents_store h.round hroom]
    exact hread.carries.mark mark
  | refused before after first e last hsent hcalls hreport =>
    exact .refused before after first e last hsent hcalls hreport
  | closed hend => cases hend

/-! ## One step -/

namespace Consumption

variable (w : Writer σ) (c : Consumption (σ × List Call))

/-- A consumer that stops closes its writer in error mode and reports what
stopped it. -/
theorem stop_noting (e : WriterError) :
    ∃ last, (c.stop w.noting e).consumer.writer.2 = c.consumer.writer.2 ++ [.close true last] ∧
      (c.stop w.noting e).consumer.report = some ⟨reached last, some e⟩ ∧
      (c.stop w.noting e).queue = c.queue := by
  obtain ⟨outcome, st, s, hclose⟩ :
      ∃ outcome st s, w.close c.consumer.writer.1 true c.site = (outcome, st, s) := ⟨_, _, _, rfl⟩
  unfold stop
  rw [Writer.noting_close hclose]
  cases outcome with
  | ok counts => exact ⟨.ok counts, rfl, rfl, rfl⟩
  | error e' => exact ⟨.error e', rfl, rfl, rfl⟩

/-- A consumer whose stream has ended closes its writer, and once more in
error mode if that fails. -/
theorem finish_noting :
    (c.finish w.noting).queue = c.queue ∧
    ((∃ counts,
        (c.finish w.noting).consumer.writer.2
          = c.consumer.writer.2 ++ [.close false (.ok counts)] ∧
        (c.finish w.noting).consumer.report = some ⟨counts, none⟩) ∨
      ∃ e last,
        (c.finish w.noting).consumer.writer.2
          = c.consumer.writer.2 ++ [.close false (.error e), .close true last] ∧
        (c.finish w.noting).consumer.report = some ⟨reached last, some e⟩) := by
  obtain ⟨outcome, st, s, hclose⟩ :
      ∃ outcome st s, w.close c.consumer.writer.1 false c.site = (outcome, st, s) := ⟨_, _, _, rfl⟩
  unfold finish
  rw [Writer.noting_close hclose]
  cases outcome with
  | ok counts => exact ⟨rfl, .inl ⟨counts, rfl, rfl⟩⟩
  | error e =>
    dsimp only
    obtain ⟨last, hcalls, hreport, hqueue⟩ := stop_noting w
      { c with
        consumer := { c.consumer with
          writer := (st, c.consumer.writer.2 ++ [.close false (.error e)]) }
        site := s } e
    refine ⟨hqueue, .inr ⟨e, last, ?_, hreport⟩⟩
    rw [hcalls, List.append_assoc]
    rfl

/-- A frame is handed to the writer, and the consumer reads on if it is
taken. -/
theorem frame_noting {bs : Bytes} {entry : Entry} (h : Frame.decode bs = .ok entry) :
    (c.frame w.noting bs).queue = c.queue ∧
    ((∃ st, (c.frame w.noting bs).consumer
        = { c.consumer with
            writer := (st, c.consumer.writer.2 ++ [.insert entry (.ok ())]), body := none }) ∨
      ∃ e last,
        (c.frame w.noting bs).consumer.writer.2
          = c.consumer.writer.2 ++ [.insert entry (.error e), .close true last] ∧
        (c.frame w.noting bs).consumer.report = some ⟨reached last, some e⟩) := by
  obtain ⟨outcome, st, s, hinsert⟩ :
      ∃ outcome st s, w.insert c.consumer.writer.1 entry.1 entry.2 c.site = (outcome, st, s) :=
    ⟨_, _, _, rfl⟩
  unfold frame
  rw [h]
  dsimp only
  rw [Writer.noting_insert hinsert]
  cases outcome with
  | ok _ => exact ⟨rfl, .inl ⟨st, rfl⟩⟩
  | error e =>
    dsimp only
    obtain ⟨last, hcalls, hreport, hqueue⟩ := stop_noting w
      { c with
        consumer := { c.consumer with
          writer := (st, c.consumer.writer.2 ++ [.insert entry (.error e)]) }
        site := s } e
    refine ⟨hqueue, .inr ⟨e, last, ?_, hreport⟩⟩
    rw [hcalls, List.append_assoc]
    rfl

variable {w c}

theorem step_of_report (h : c.consumer.report.isSome = true) : c.step? w.noting = none := by
  rw [step?, if_pos h]

theorem step_of_short {q : Segment} (hgoing : c.consumer.report = none)
    (hread : c.queue.read c.consumer.side c.consumer.token (c.consumer.body.getD 4)
      = (.ok none, q)) : c.step? w.noting = none := by
  rw [step?, hgoing, Option.isSome_none, if_neg Bool.false_ne_true]
  dsimp only
  rw [hread]

theorem step_of_header {bs : Bytes} {q : Segment} (hgoing : c.consumer.report = none)
    (hbody : c.consumer.body = none)
    (hread : c.queue.read c.consumer.side c.consumer.token 4 = (.ok (some bs), q)) :
    c.step? w.noting = some ({ c with queue := q }.header w.noting (Bytes.unsigned bs)) := by
  rw [step?, hgoing, Option.isSome_none, if_neg Bool.false_ne_true, hbody]
  dsimp only [Option.getD_none]
  rw [hread, hbody]

theorem step_of_frame {bs : Bytes} {q : Segment} {n : Nat} (hgoing : c.consumer.report = none)
    (hbody : c.consumer.body = some n)
    (hread : c.queue.read c.consumer.side c.consumer.token n = (.ok (some bs), q)) :
    c.step? w.noting = some ({ c with queue := q }.frame w.noting bs) := by
  rw [step?, hgoing, Option.isSome_none, if_neg Bool.false_ne_true, hbody]
  dsimp only [Option.getD_some]
  rw [hread, hbody]

end Consumption

section Advance

variable {capacity : Nat} {sent : List Entry} {mark : Frame.Mark} {w : Writer σ}
variable {c : Consumption (σ × List Call)}

/-- A consumer before the end of the stream ends there. -/
theorem Linked.advance_mark {before : List Entry} (hcap : 4 < capacity)
    (hround : c.queue.Round) (hcapacity : c.queue.capacity = capacity) (hsent : sent = before)
    (hcalls : c.consumer.writer.2 = Call.taken before)
    (hread : Reading capacity mark [] c.consumer c.queue) (hbody : c.consumer.body = none)
    (hcontents : c.queue.contents = mark.bytes) :
    (c.step? w.noting = none ∧ mark = .more ∧ c.consumer.writer.2 = Call.taken sent) ∨
      ∃ c', c.step? w.noting = some c' ∧ Linked capacity sent mark c'.consumer c'.queue ∧
        c'.consumer.report.isSome = true := by
  subst hsent
  cases mark with
  | more =>
    have hused : c.queue.used = 0 := by
      rw [← Segment.length_contents, hcontents]
      rfl
    have hshort := Segment.read_of_short hread.unclosed hread.calm hread.lives
      (show c.queue.used < c.consumer.body.getD 4 by rw [hbody, Option.getD_none]; omega)
      (show c.consumer.body.getD 4 < c.queue.capacity by rw [hbody, Option.getD_none]; omega)
    exact .inl ⟨Consumption.step_of_short hread.going hshort, rfl, hcalls⟩
  | finish =>
    have hall : c.queue.contents = Frame.lengthBytes Frame.terminator ++ [] := by
      rw [hcontents, Frame.Mark.bytes, List.append_nil]
    obtain ⟨hfront, _, _⟩ := Segment.read_front hround hread.unclosed hread.calm hall
    rw [Frame.length_lengthBytes] at hfront
    have hstep := Consumption.step_of_header (w := w) hread.going hbody hfront
    rw [Frame.unsigned_lengthBytes (by decide), Consumption.header, if_pos rfl] at hstep
    obtain ⟨hqueue, hend⟩ := Consumption.finish_noting w { c with queue := (c.queue.take 4).2 }
    refine .inr ⟨_, hstep, ?_⟩
    rcases hend with ⟨counts, hnew, hreport⟩ | ⟨e, last, hnew, hreport⟩
    · refine ⟨⟨hqueue ▸ hround.take 4, hqueue ▸ hcapacity, ?_⟩, by rw [hreport]; rfl⟩
      exact .closed (.complete counts (by rw [hnew, hcalls]) hreport)
    · refine ⟨⟨hqueue ▸ hround.take 4, hqueue ▸ hcapacity, ?_⟩, by rw [hreport]; rfl⟩
      exact .closed (.unfinished e last (by rw [hnew, hcalls]) hreport)
  | abandon =>
    have hall : c.queue.contents = Frame.lengthBytes Frame.abortMark ++ [] := by
      rw [hcontents, Frame.Mark.bytes, List.append_nil]
    obtain ⟨hfront, _, _⟩ := Segment.read_front hround hread.unclosed hread.calm hall
    rw [Frame.length_lengthBytes] at hfront
    have hstep := Consumption.step_of_header (w := w) hread.going hbody hfront
    rw [Frame.unsigned_lengthBytes (by decide), Consumption.header, if_neg (by decide),
      if_pos rfl] at hstep
    obtain ⟨last, hnew, hreport, hqueue⟩ := Consumption.stop_noting w
      { c with queue := (c.queue.take 4).2 } (.remote "load aborted by the producer")
    refine .inr ⟨_, hstep, ⟨hqueue ▸ hround.take 4, hqueue ▸ hcapacity, ?_⟩, by rw [hreport]; rfl⟩
    exact .closed (.abandoned last (by rw [hnew, hcalls]) hreport)

/-- A consumer before a frame learns its length. -/
theorem Linked.advance_header {before rest : List Entry} {entry : Entry}
    (hround : c.queue.Round) (hcapacity : c.queue.capacity = capacity)
    (hsent : sent = before ++ entry :: rest)
    (hcalls : c.consumer.writer.2 = Call.taken before)
    (hread : Reading capacity mark (entry :: rest) c.consumer c.queue)
    (hbody : c.consumer.body = none)
    (hcontents : c.queue.contents = Frame.stream (entry :: rest) ++ mark.bytes) :
    ∃ c', c.step? w.noting = some c' ∧ Linked capacity sent mark c'.consumer c'.queue ∧
      c'.queue.used < c.queue.used := by
  have hfits := hread.fits entry (List.mem_cons_self ..)
  have hall : c.queue.contents
      = Frame.lengthBytes (Frame.encode entry.1 entry.2).length
        ++ (Frame.encode entry.1 entry.2 ++ (Frame.stream rest ++ mark.bytes)) := by
    rw [hcontents, Frame.stream_cons, List.append_assoc, List.append_assoc]
  obtain ⟨hfront, hleft, hused⟩ := Segment.read_front hround hread.unclosed hread.calm hall
  rw [Frame.length_lengthBytes] at hfront hleft hused
  have hsmall : (Frame.encode entry.1 entry.2).length < Nat.pow 256 4 :=
    Nat.lt_trans hfits.2 (by decide)
  have hstep := Consumption.step_of_header (w := w) hread.going hbody hfront
  rw [Frame.unsigned_lengthBytes hsmall, Consumption.header,
    if_neg (Nat.ne_of_gt (Frame.terminator_lt_length_encode entry.1 entry.2)),
    if_neg (Nat.ne_of_lt hfits.2)] at hstep
  refine ⟨_, hstep, ⟨hround.take 4, hcapacity, ?_⟩, by dsimp only; omega⟩
  refine .reading before (entry :: rest) hsent hcalls ?_
  refine ⟨hread.lives, hread.unclosed, hread.calm, hread.going, hread.fits, ?_⟩
  dsimp only
  rw [hleft]
  exact .within entry rest

/-- A consumer that knows the length of a frame hands its row over. -/
theorem Linked.advance_frame {before rest : List Entry} {entry : Entry}
    (hround : c.queue.Round) (hcapacity : c.queue.capacity = capacity)
    (hsent : sent = before ++ entry :: rest)
    (hcalls : c.consumer.writer.2 = Call.taken before)
    (hread : Reading capacity mark (entry :: rest) c.consumer c.queue)
    (hbody : c.consumer.body = some (Frame.encode entry.1 entry.2).length)
    (hcontents : c.queue.contents
      = Frame.encode entry.1 entry.2 ++ (Frame.stream rest ++ mark.bytes)) :
    ∃ c', c.step? w.noting = some c' ∧ Linked capacity sent mark c'.consumer c'.queue ∧
      (c'.consumer.report.isSome = true ∨ c'.queue.used < c.queue.used) := by
  have hfits := hread.fits entry (List.mem_cons_self ..)
  have hpos := Frame.terminator_lt_length_encode entry.1 entry.2
  have hsmall : (Frame.encode entry.1 entry.2).length < Nat.pow 256 8 :=
    Nat.lt_trans hfits.2 (by decide)
  obtain ⟨hfront, hleft, hused⟩ := Segment.read_front hround hread.unclosed hread.calm hcontents
  have hstep := Consumption.step_of_frame (w := w) hread.going hbody hfront
  obtain ⟨hqueue, hend⟩ := Consumption.frame_noting w
    { c with queue := (c.queue.take (Frame.encode entry.1 entry.2).length).2 }
    (Frame.decode_encode entry.1 entry.2 hsmall)
  dsimp only at hqueue
  have hround' := hround.take (Frame.encode entry.1 entry.2).length
  rw [← hqueue] at hround'
  have hcapacity' := congrArg Segment.capacity hqueue
  refine ⟨_, hstep, ?_⟩
  rcases hend with ⟨st, hnext⟩ | ⟨e, last, hnew, hreport⟩
  · refine ⟨⟨hround', hcapacity'.trans hcapacity, ?_⟩, .inr ?_⟩
    · rw [hqueue, hnext]
      refine .reading (before ++ [entry]) rest ?_ ?_ ?_
      · rw [hsent, List.append_assoc, List.singleton_append]
      · dsimp only
        rw [hcalls, Call.taken_append]
        rfl
      · refine ⟨hread.lives, hread.unclosed, hread.calm, hread.going, ?_, ?_⟩
        · intro later hlater
          exact hread.fits later (List.mem_cons_of_mem _ hlater)
        · dsimp only
          rw [hleft]
          exact .between rest
    · rw [hqueue]
      rw [Frame.terminator] at hpos
      omega
  · refine ⟨⟨hround', hcapacity'.trans hcapacity, ?_⟩, .inl (by rw [hreport]; rfl)⟩
    exact .refused before rest entry e last hsent (by rw [hnew, hcalls]) hreport

/-- **A consumer's step.** It has ended, or has read all there is so far,
or moves on in the same stream and leaves less of it on the queue. -/
theorem Linked.advance (hcap : 4 < capacity)
    (h : Linked capacity sent mark c.consumer c.queue) :
    (c.step? w.noting = none ∧ (c.consumer.report.isSome = true ∨
      (mark = .more ∧ c.consumer.writer.2 = Call.taken sent))) ∨
    ∃ c', c.step? w.noting = some c' ∧ Linked capacity sent mark c'.consumer c'.queue ∧
      (c'.consumer.report.isSome = true ∨ c'.queue.used < c.queue.used) := by
  have hended : c.consumer.report.isSome = true → c.step? w.noting = none ∧
      (c.consumer.report.isSome = true ∨
        (mark = .more ∧ c.consumer.writer.2 = Call.taken sent)) :=
    fun hreport => ⟨Consumption.step_of_report hreport, .inl hreport⟩
  cases h.course with
  | refused before after entry e last _ _ hreport => exact .inl (hended (by rw [hreport]; rfl))
  | closed hend => exact .inl (hended hend.ended)
  | reading before ahead hsent hcalls hread =>
    have hcarries := hread.carries
    generalize hbody : c.consumer.body = body at hcarries
    generalize hcontents : c.queue.contents = contents at hcarries
    cases hcarries with
    | between =>
      cases ahead with
      | nil =>
        rw [List.append_nil] at hsent
        rcases Linked.advance_mark hcap h.round h.capacity_eq hsent hcalls hread hbody hcontents
          with ⟨hnone, hmark, hall⟩ | ⟨c', hstep, hlinked, hreport⟩
        · exact .inl ⟨hnone, .inr ⟨hmark, hall⟩⟩
        · exact .inr ⟨c', hstep, hlinked, .inl hreport⟩
      | cons entry rest =>
        obtain ⟨c', hstep, hlinked, hused⟩ :=
          Linked.advance_header h.round h.capacity_eq hsent hcalls hread hbody hcontents
        exact .inr ⟨c', hstep, hlinked, .inr hused⟩
    | within entry rest =>
      exact .inr (Linked.advance_frame h.round h.capacity_eq hsent hcalls hread hbody hcontents)

/-! ## Any number of steps -/

/-- Steps keep to the stream. -/
theorem Linked.steps (hcap : 4 < capacity) (n : Nat)
    (h : Linked capacity sent mark c.consumer c.queue) :
    Linked capacity sent mark (c.steps w.noting n).consumer (c.steps w.noting n).queue := by
  induction n generalizing c with
  | zero => exact h
  | succ n ih =>
    rcases h.advance (w := w) hcap with ⟨hnone, _⟩ | ⟨c', hstep, hnext, _⟩
    · rw [Consumption.steps, hnone]
      exact h
    · rw [Consumption.steps, hstep]
      exact ih hnext

theorem Consumption.steps_of_none (n : Nat) (h : c.step? w.noting = none) :
    c.steps w.noting n = c := by
  cases n with
  | zero => rfl
  | succ n => rw [Consumption.steps, h]

/-- As many steps as there are bytes on the queue, and one, are all that
can be made. -/
theorem Linked.steps_rest (hcap : 4 < capacity) {n : Nat} (hn : c.queue.used < n)
    (h : Linked capacity sent mark c.consumer c.queue) :
    (c.steps w.noting n).step? w.noting = none := by
  induction n generalizing c with
  | zero => exact absurd hn (Nat.not_lt_zero _)
  | succ n ih =>
    rcases h.advance (w := w) hcap with ⟨hnone, _⟩ | ⟨c', hstep, hnext, hmeasure⟩
    · rw [Consumption.steps_of_none _ hnone]
      exact hnone
    · rw [Consumption.steps, hstep]
      dsimp only
      rcases hmeasure with hreport | hused
      · have hend := Consumption.step_of_report (w := w) hreport
        rw [Consumption.steps_of_none _ hend]
        exact hend
      · exact ih (by omega) hnext

/-- A consumer left to itself keeps to the stream, and ends unless the
stream may still go on, in which case it has handed over all rows. -/
theorem Linked.settle (hcap : 4 < capacity)
    (h : Linked capacity sent mark c.consumer c.queue) :
    Linked capacity sent mark (c.settle w.noting).consumer (c.settle w.noting).queue ∧
      (c.settle w.noting).step? w.noting = none ∧
      ((c.settle w.noting).consumer.report.isSome = true ∨
        (mark = .more ∧ (c.settle w.noting).consumer.writer.2 = Call.taken sent)) := by
  have hlinked := h.steps (w := w) hcap (c.queue.used + 1)
  have hrest := h.steps_rest (w := w) hcap (Nat.lt_succ_self _)
  refine ⟨hlinked, hrest, ?_⟩
  rcases hlinked.advance (w := w) hcap with ⟨_, hend⟩ | ⟨c', hstep, _, _⟩
  · exact hend
  · rw [hrest] at hstep
    cases hstep

/-- A consumer whose token has been tripped stops at its next look. -/
theorem Linked.settle_tripped {kind : Interrupt}
    (h : Linked capacity sent mark c.consumer c.queue) {token : Token}
    (htoken : token.pending = some kind) :
    Call.given (Consumption.settle w.noting
      { c with consumer := { c.consumer with token := token } }).consumer.writer.2 <+: sent := by
  have hstay : c.consumer.report.isSome = true → Consumption.settle w.noting
      { c with consumer := { c.consumer with token := token } }
      = { c with consumer := { c.consumer with token := token } } :=
    fun hreport => Consumption.steps_of_none _ (Consumption.step_of_report hreport)
  have hprefix := h.course.given_prefix
  by_cases hreport : c.consumer.report.isSome = true
  · rw [hstay hreport]
    exact hprefix
  · obtain ⟨e, hread⟩ : ∃ e,
        c.queue.read c.consumer.side token (c.consumer.body.getD 4) = (.error e, c.queue) :=
      Segment.read_of_tripped htoken
    obtain ⟨last, hcalls, hend, _⟩ := Consumption.stop_noting w
      { c with consumer := { c.consumer with token := token } } (.queue e)
    have hstep : Consumption.step? w.noting
        { c with consumer := { c.consumer with token := token } }
        = some (Consumption.stop w.noting
          { c with consumer := { c.consumer with token := token } } (.queue e)) := by
      rw [Consumption.step?, if_neg hreport]
      dsimp only
      rw [hread]
    have hnone := Consumption.step_of_report (w := w) (by rw [hend]; rfl)
    rw [Consumption.settle, Consumption.steps, hstep]
    dsimp only
    rw [Consumption.steps_of_none _ hnone, hcalls, Call.given_append]
    exact (List.append_nil _).symm ▸ hprefix

end Advance

end Intake
