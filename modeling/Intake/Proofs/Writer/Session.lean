import Intake.Proofs.Writer.Sending
/-!
# A parallel load from end to end

Rows are sent one after another, the stream is ended, and the consumer's
report is collected. Whatever the consumer's writer is and however the
steps of the two sides fall, that writer is given the rows in order, and
the writing side learns how it ended (`session_faithful`).

The queue must have room for a mark and for each frame, and the length of
a frame must not be taken for a mark. Without that a load fails though its
consumer does not (`session_unfaithful`).
-/

namespace Intake

open ParallelWriter

variable {σ : Type} {w : Writer σ}

/-- What became of a load: rows are inserted one after another until one
is refused, and the writer is closed if none is. -/
structure Session (π : Type) where
  /-- The rows whose insertion has succeeded. -/
  accepted : List Entry
  /-- What came of the last frame or mark that was to be sent, and the
  writer and the site then. -/
  lastSend : Except WriterError Unit × ParallelWriter π × Site
  /-- The first error, or the counts. -/
  outcome : Except WriterError Counts
  writer : ParallelWriter π
  site : Site

/-- Inserts rows and closes the writer, some rows having been accepted
before. -/
def session {π : Type} (p : Peer π) (accepted : List Entry) :
    List Entry → ParallelWriter π → Site → Session π
  | [], x, s =>
    match x.close p false s with
    | (outcome, y, s') =>
      { accepted := accepted
        lastSend := { x with closed := true }.send p [Frame.lengthBytes Frame.terminator] s
        outcome := outcome
        writer := y
        site := s' }
  | entry :: entries, x, s =>
    match x.insert p entry.1 entry.2 s with
    | (.ok (), x, s) => session p (accepted ++ [entry]) entries x s
    | (.error e, y, s') =>
      { accepted := accepted
        lastSend := (.error e, y, s')
        outcome := .error e
        writer := y
        site := s' }

/-- How the calls of a writer that refuses a row, or fails when it is
closed, end. -/
inductive Call.Failing (entries : List Entry) (e : WriterError)
    (last : Except WriterError Counts) : List Call → Prop where
  /-- It has refused a row. -/
  | refused (before after : List Entry) (entry : Entry)
    (hentries : entries = before ++ entry :: after) :
    Failing entries e last (taken before ++ [.insert entry (.error e), .close true last])
  /-- It has taken all rows and failed when it was closed. -/
  | unfinished :
    Failing entries e last (taken entries ++ [.close false (.error e), .close true last])

theorem Call.Failing.given_prefix {entries : List Entry} {e : WriterError}
    {last : Except WriterError Counts} {calls : List Call} (h : Failing entries e last calls) :
    given calls <+: entries := by
  cases h with
  | refused before after entry hentries => exact given_refused_prefix hentries _ _
  | unfinished => exact ⟨[], (List.append_nil _).trans (given_taken_closed rfl)⟩

/-- How a session ends: with the consumer's counts, with its failure, or
because the writing side stops by itself. -/
inductive Session.Ending (w : Writer σ) (entries : List Entry)
    (x : Session (ThreadPeer (σ × List Call))) : Prop where
  /-- The consumer's writer has taken all rows and been closed, and its
  counts are the outcome. -/
  | complete (counts : Counts) (haccepted : x.accepted = entries)
    (hcalls : x.writer.calls = Call.taken entries ++ [.close false (.ok counts)])
    (houtcome : x.outcome = .ok counts)
  /-- The consumer's writer has failed, and its failure is the first error.
  Closing in error mode then tells the counts reached, and asks nothing
  more of that writer. -/
  | failed (e : WriterError) (last : Except WriterError Counts)
    (hcalls : Call.Failing entries e last x.writer.calls) (houtcome : x.outcome = .error e)
    (hagain : (x.writer.close (ThreadPeer.peer w.noting) true x.site).1 = .ok (reached last))
    (hstill : (x.writer.close (ThreadPeer.peer w.noting) true x.site).2.1.calls
      = x.writer.calls)
  /-- The last send has failed without the consumer: its report had not
  been collected. -/
  | halted (e : WriterError) (y : ParallelWriter (ThreadPeer (σ × List Call))) (s : Site)
    (hlast : x.lastSend = (.error e, y, s)) (hwaiting : y.peer.joined = false)
    (cause : OwnStop y s e) (houtcome : x.outcome = .error e)

/-- How a session ends, and that the consumer's writer was given nothing
but a prefix of the rows that were accepted. -/
structure Session.Faithful (w : Writer σ) (entries : List Entry)
    (x : Session (ThreadPeer (σ × List Call))) : Prop where
  given_prefix : Call.given x.writer.calls <+: x.accepted
  accepted_prefix : x.accepted <+: entries
  ending : x.Ending w entries

theorem Session.faithful_of_failing {entries : List Entry} {calls : List Call}
    {x : Session (ThreadPeer (σ × List Call))} {e : WriterError}
    {last : Except WriterError Counts} {closed : Bool} (hfailing : Call.Failing entries e last calls)
    (hgiven : Call.given calls <+: x.accepted) (haccepted : x.accepted <+: entries)
    (h : Collected calls (reached last) closed x.writer) (houtcome : x.outcome = .error e) :
    x.Faithful w entries := by
  obtain ⟨hagain, hstill⟩ := h.close (w := w) x.site
  refine ⟨?_, haccepted, .failed e last ?_ houtcome hagain ?_⟩
  · rw [h.calls_eq]
    exact hgiven
  · rw [h.calls_eq]
    exact hfailing
  · rw [hstill, h.calls_eq]

section Proof

variable {capacity : Nat} {sent entries : List Entry} {closed : Bool}
variable {x : ParallelWriter (ThreadPeer (σ × List Call))}

/-- At the end of the stream the consumer has taken all rows, or failed. -/
theorem Bound.collected (hcap : 4 < capacity) (h : Bound capacity sent .finish closed x)
    (s : Site) :
    (∃ counts y s', x.collect (ThreadPeer.peer w.noting) s = (.ok counts, y, s') ∧
      Collected (Call.taken sent ++ [.close false (.ok counts)]) counts closed y) ∨
    ∃ e last calls y s', Call.Failing sent e last calls ∧
      x.collect (ThreadPeer.peer w.noting) s = (.error e, y, s') ∧
      Collected calls (reached last) closed y := by
  obtain ⟨hlinked, _, hended⟩ :=
    Linked.settle (w := w) (c := ⟨x.peer.consumer, x.queue, s⟩) hcap h.linked
  cases hlinked.course with
  | reading before ahead _ _ hread =>
    rw [hread.going] at hended
    rcases hended with hnone | ⟨hmark, _⟩
    · cases hnone
    · cases hmark
  | refused before after entry e last hsent hcalls hreport =>
    obtain ⟨y, s', hcollect, hcollected⟩ := h.collect hreport
    rw [hcalls] at hcollected
    exact .inr ⟨e, last, _, y, s', .refused before after entry hsent, hcollect, hcollected⟩
  | closed hend =>
    cases hend with
    | complete counts hcalls hreport =>
      obtain ⟨y, s', hcollect, hcollected⟩ := h.collect hreport
      rw [hcalls] at hcollected
      exact .inl ⟨counts, y, s', hcollect, hcollected⟩
    | unfinished e last hcalls hreport =>
      obtain ⟨y, s', hcollect, hcollected⟩ := h.collect hreport
      rw [hcalls] at hcollected
      exact .inr ⟨e, last, _, y, s', .unfinished, hcollect, hcollected⟩

/-- Closing ends a session. -/
theorem Bound.faithful_close (hcap : 4 < capacity) (h : Bound capacity entries .more false x)
    (s : Site) : (session (ThreadPeer.peer w.noting) entries [] x s).Faithful w entries := by
  have hmarked : Bound capacity entries .more true { x with closed := true } :=
    ⟨h.linked, h.joined, h.unclosed, rfl⟩
  have hsend := hmarked.terminate (w := w) hcap s
  unfold session ParallelWriter.close
  rw [h.closed_eq, if_neg Bool.false_ne_true]
  dsimp only
  rw [if_neg Bool.false_ne_true]
  unfold ParallelWriter.complete
  generalize ParallelWriter.send (ThreadPeer.peer w.noting) { x with closed := true }
    [Frame.lengthBytes Frame.terminator] s = r at hsend
  cases hsend with
  | @done y s' hdone =>
    dsimp only
    rcases hdone.collected (w := w) hcap s' with
      ⟨counts, z, s'', hcollect, hcollected⟩ | ⟨e, last, calls, z, s'', hfailing, hcollect, hcollected⟩
    · rw [hcollect]
      refine ⟨?_, List.prefix_refl _, .complete counts rfl hcollected.calls_eq rfl⟩
      show Call.given z.calls <+: entries
      rw [hcollected.calls_eq]
      exact ⟨[], (List.append_nil _).trans (Call.given_taken_closed rfl)⟩
    · rw [hcollect]
      dsimp only
      rw [hcollected.release]
      exact Session.faithful_of_failing hfailing hfailing.given_prefix (List.prefix_refl _)
        hcollected.closeQueue rfl
  | @stopped y s' hbound e cause =>
    refine ⟨?_, List.prefix_refl _, .halted e y s' rfl hbound.joined cause rfl⟩
    exact ThreadPeer.abort_prefix hcap hbound.linked hbound.joined s'
  | @refused y s' before after entry e last hsent hcollected =>
    have hfailing : Call.Failing entries e last _ := .refused before after entry hsent
    dsimp only
    rw [hcollected.release]
    exact Session.faithful_of_failing hfailing hfailing.given_prefix (List.prefix_refl _)
      hcollected.closeQueue rfl

/-- A session of which some rows have been sent comes to an end. -/
theorem Bound.faithful_session (hcap : 4 < capacity)
    (hfits : ∀ entry ∈ entries, Frame.Fits capacity entry)
    (h : Bound capacity sent .more false x) (s : Site) :
    (session (ThreadPeer.peer w.noting) sent entries x s).Faithful w (sent ++ entries) := by
  induction entries generalizing sent x s with
  | nil =>
    rw [List.append_nil]
    exact h.faithful_close hcap s
  | cons entry entries ih =>
    have hinsert := h.insert (w := w) hcap (hfits entry (List.mem_cons_self ..)) s
    unfold session
    generalize ParallelWriter.insert (ThreadPeer.peer w.noting) x entry.1 entry.2 s = r at hinsert
    cases hinsert with
    | @done y s' hdone =>
      have hrest := ih (fun later hlater => hfits later (List.mem_cons_of_mem _ hlater)) hdone s'
      rw [List.append_assoc, List.singleton_append] at hrest
      exact hrest
    | @stopped y s' hbound e cause =>
      refine ⟨?_, List.prefix_append sent _, .halted e y s' rfl hbound.joined cause rfl⟩
      exact hbound.linked.course.given_prefix
    | @refused y s' before after first e last hsent hcollected =>
      have hgiven : Call.Failing sent e last _ := .refused before after first hsent
      have hfailing : Call.Failing (sent ++ entry :: entries) e last _ :=
        .refused before (after ++ entry :: entries) first
          (by rw [hsent, List.append_assoc, List.cons_append])
      exact Session.faithful_of_failing hfailing hgiven.given_prefix (List.prefix_append sent _)
        hcollected rfl

end Proof

/-- A session over a new queue, with a consumer on a thread. -/
def threaded (w : Writer σ) (st : σ) (q : Segment) (pace : List Nat) (timeout maxStalls : Nat)
    (entries : List Entry) (s : Site) : Session (ThreadPeer (σ × List Call)) :=
  session (ThreadPeer.peer w.noting) [] entries
    (ParallelWriter.start q { consumer := { writer := (st, []) }, pace := pace } timeout maxStalls) s

/-- **A parallel load is faithful.** Rows whose frames fit a new queue are
sent to any writer on a consumer that reads at any pace. -/
theorem session_faithful (w : Writer σ) (st : σ) (key producer : Nat) {capacity : Nat}
    (hcap : 4 < capacity) {entries : List Entry}
    (hfits : ∀ entry ∈ entries, Frame.Fits capacity entry) (pace : List Nat)
    (timeout maxStalls : Nat) (s : Site) :
    ∃ q, Segment.create key producer capacity = .ok q ∧
      (threaded w st q pace timeout maxStalls entries s).Faithful w entries := by
  obtain ⟨q, hq, hlinked⟩ := Linked.start st key producer (show 2 ≤ capacity by omega)
  have hbound : Bound capacity [] .more false (ParallelWriter.start q
      { consumer := { writer := (st, []) }, pace := pace } timeout maxStalls) :=
    ⟨hlinked, rfl, rfl, rfl⟩
  exact ⟨q, hq, hbound.faithful_session hcap hfits s⟩

/-- A writer into a table whose first column is its key. -/
def keyedTable : LocalWriter where
  storage := { medium := .table { keyColumn := some 0 } }
  duplicates := { policy := .error, limit := .unlimited }

/-- Two rows of one key. -/
def rivals : List Entry :=
  [(.ofValues [.int64 1, .text [97]], [49, 44, 97, 10]),
    (.ofValues [.int64 1, .text [98]], [49, 44, 98, 10])]

/-- The second of two rows of one key is refused, on a queue that holds one
frame at a time. -/
theorem session_faithful_rivals :
    4 < 64 ∧ (∀ entry ∈ rivals, Frame.Fits 64 entry) ∧
      ∃ q, Segment.create 7 1 64 = .ok q ∧
        (threaded LocalWriter.writer keyedTable q [1, 0, 2] 20 3 rivals {}).Faithful
          LocalWriter.writer rivals :=
  ⟨by decide, by decide,
    session_faithful LocalWriter.writer keyedTable 7 1 (by decide) (by decide) [1, 0, 2] 20 3 {}⟩

/-- A session that fails on its own account with anything but an interrupt
or a stall is not faithful. -/
theorem Session.not_faithful {entries : List Entry} {x : Session (ThreadPeer (σ × List Call))}
    {e : QueueError} (houtcome : x.outcome = .error (.queue e))
    (hlast : x.lastSend.1 = .error (.queue e)) (hquiet : ∀ kind, e ≠ .interrupted kind)
    (hcalls : ∀ call ∈ x.writer.calls, ∃ last, call = .close true last) : ¬ x.Faithful w entries := by
  intro h
  cases h.ending with
  | complete counts _ hcomplete _ =>
    obtain ⟨last, hlast⟩ := hcalls (.close false (.ok counts)) (by
      rw [hcomplete]
      exact List.mem_append_right _ (List.mem_singleton_self _))
    cases hlast
  | failed e' last hfailing _ _ _ =>
    generalize x.writer.calls = calls at hfailing hcalls
    cases hfailing with
    | refused before after entry _ =>
      obtain ⟨last', hbad⟩ := hcalls (.insert entry (.error e'))
        (List.mem_append_right _ (List.mem_cons_self ..))
      cases hbad
    | unfinished =>
      obtain ⟨last', hbad⟩ := hcalls (.close false (.error e'))
        (List.mem_append_right _ (List.mem_cons_self ..))
      cases hbad
  | halted e' y s hsend _ cause _ =>
    rw [hsend] at hlast
    cases hlast
    cases cause with
    | interrupted kind _ => exact hquiet kind rfl

/-- A row whose length would be taken for a mark, or does not fit its four
bytes, is not sent, whatever the queue could hold. -/
theorem Session.not_faithful_of_long {entry : Entry} {q : Segment} {st : σ} {pace : List Nat}
    {timeout maxStalls : Nat} {s : Site}
    (hlong : Frame.abortMark ≤ (Frame.encode entry.1 entry.2).length) :
    ¬ (threaded w st q pace timeout maxStalls [entry] s).Faithful w [entry] := by
  have hinsert : ∀ x : ParallelWriter (ThreadPeer (σ × List Call)), x.closed = false →
      x.insert (ThreadPeer.peer w.noting) entry.1 entry.2 s
        = (.error (.queue (.tooLarge (Frame.encode entry.1 entry.2).length x.queue.capacity)),
            x, s) := by
    intro x hopen
    unfold ParallelWriter.insert
    rw [hopen, if_neg Bool.false_ne_true]
    dsimp only
    rw [if_pos hlong]
  apply Session.not_faithful (e := .tooLarge (Frame.encode entry.1 entry.2).length q.capacity)
  · unfold threaded session
    rw [hinsert _ rfl]
    rfl
  · unfold threaded session
    rw [hinsert _ rfl]
    rfl
  · intro kind h
    cases h
  · unfold threaded session
    rw [hinsert _ rfl]
    intro call hcall
    cases hcall

/-- Where the mark that ends the stream does not fit the queue, or the
length of a frame does not fit its four bytes, a load fails though its
consumer does not. -/
theorem session_unfaithful :
    (∃ q, Segment.create 7 1 4 = .ok q ∧
      ¬ (threaded LocalWriter.writer keyedTable q [] 20 3 [] {}).Faithful LocalWriter.writer []) ∧
    ∃ q, Segment.create 7 1 8589934592 = .ok q ∧
      4 + (Frame.encode ⟨[], []⟩ (List.replicate 4294967271 0)).length < 8589934592 ∧
      ¬ (threaded LocalWriter.writer keyedTable q [] 20 3
          [(⟨[], []⟩, List.replicate 4294967271 0)] {}).Faithful LocalWriter.writer
        [(⟨[], []⟩, List.replicate 4294967271 0)] := by
  -- The record is never written out: only its length is looked at.
  have hlength : ∀ n, (Frame.encode ⟨[], []⟩ (List.replicate n 0)).length = 24 + n := by
    intro n
    rw [Frame.length_encode, List.length_replicate]
    rfl
  refine ⟨⟨_, rfl, ?_⟩, ⟨_, rfl, ?_, ?_⟩⟩
  · apply Session.not_faithful (e := .tooLarge 4 4)
    · rfl
    · rfl
    · intro kind h
      cases h
    · intro call hcall
      exact ⟨.ok {}, List.mem_singleton.mp hcall⟩
  · rw [hlength]
    decide
  · apply Session.not_faithful_of_long
    exact Nat.le_of_eq (hlength 4294967271).symm

end Intake
