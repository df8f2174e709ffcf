import Intake.Proofs.Queue.Framing
import Intake.Proofs.Queue.Traffic
/-!
# Streams of frames

A stream is the frames of some rows, one after another, and perhaps a
mark that says how it ends. A reader takes it off the queue in pieces, a
length and then a frame, so at any time it stands either between two
frames or before a frame whose length it has (`Frame.Ahead`).
-/

namespace Intake

/-- A row and its record. -/
abbrev Entry := Row × Bytes

namespace Frame

/-- A row as it stands on the queue. -/
def framed (entry : Entry) : Bytes :=
  lengthBytes (encode entry.1 entry.2).length ++ encode entry.1 entry.2

/-- Rows as they stand on the queue. -/
def stream (entries : List Entry) : Bytes := entries.flatMap framed

theorem stream_append (xs ys : List Entry) : stream (xs ++ ys) = stream xs ++ stream ys :=
  List.flatMap_append

theorem stream_cons (entry : Entry) (entries : List Entry) :
    stream (entry :: entries)
      = lengthBytes (encode entry.1 entry.2).length ++ (encode entry.1 entry.2 ++ stream entries) := by
  rw [stream, List.flatMap_cons, framed, List.append_assoc]
  rfl

/-- A row whose frame a queue can hold, and whose length is not taken for
another mark. -/
def Fits (capacity : Nat) (entry : Entry) : Prop :=
  4 + (encode entry.1 entry.2).length < capacity ∧ (encode entry.1 entry.2).length < abortMark

instance (capacity : Nat) (entry : Entry) : Decidable (Fits capacity entry) :=
  inferInstanceAs (Decidable (_ ∧ _))

/-- How a stream goes on after its rows. -/
inductive Mark where
  /-- Not at all yet. -/
  | more
  /-- All rows are in. -/
  | finish
  /-- The reading side is to give up. -/
  | abandon
  deriving DecidableEq

/-- A mark on the queue. -/
def Mark.bytes : Mark → Bytes
  | .more => []
  | .finish => lengthBytes terminator
  | .abandon => lengthBytes abortMark

/-- What a queue carries for a reader that has the length of the next
frame, or has not. -/
inductive Ahead (mark : Mark) : List Entry → Option Nat → Bytes → Prop where
  | between (entries : List Entry) : Ahead mark entries none (stream entries ++ mark.bytes)
  | within (entry : Entry) (entries : List Entry) :
    Ahead mark (entry :: entries) (some (encode entry.1 entry.2).length)
      (encode entry.1 entry.2 ++ (stream entries ++ mark.bytes))

/-- A row more at the end. -/
theorem Ahead.push {entries : List Entry} {body : Option Nat} {bs : Bytes}
    (h : Ahead .more entries body bs) (entry : Entry) :
    Ahead .more (entries ++ [entry]) body (bs ++ framed entry) := by
  have hone : stream [entry] = framed entry := by
    rw [stream, List.flatMap_singleton]
  cases h with
  | between =>
    have hnext : Ahead .more (entries ++ [entry]) none _ := .between (entries ++ [entry])
    rw [stream_append, hone, Mark.bytes, List.append_nil] at hnext
    rw [Mark.bytes, List.append_nil]
    exact hnext
  | within first rest =>
    have hnext : Ahead .more (first :: (rest ++ [entry])) _ _ := .within first (rest ++ [entry])
    rw [stream_append, hone, Mark.bytes, List.append_nil] at hnext
    rw [Mark.bytes, List.append_nil, List.append_assoc]
    exact hnext

/-- A mark at the end. -/
theorem Ahead.mark {entries : List Entry} {body : Option Nat} {bs : Bytes}
    (h : Ahead .more entries body bs) (mark : Mark) :
    Ahead mark entries body (bs ++ mark.bytes) := by
  cases h with
  | between =>
    rw [Mark.bytes, List.append_nil]
    exact .between entries
  | within first rest =>
    rw [Mark.bytes, List.append_nil, List.append_assoc]
    exact .within first rest

end Frame

/-- Bytes at the front of a queue are read by one look. -/
theorem Segment.read_front {q : Segment} {side : Side} {token : Token} {xs ys : Bytes}
    (hq : q.Round) (hopen : side.closed = false) (hcalm : token.pending = none)
    (h : q.contents = xs ++ ys) :
    q.read side token xs.length = (.ok (some xs), (q.take xs.length).2) ∧
      (q.take xs.length).2.contents = ys ∧ (q.take xs.length).2.used + xs.length = q.used := by
  have hn : xs.length ≤ q.used := by
    rw [← Segment.length_contents, h, List.length_append]
    omega
  refine ⟨?_, ?_, ?_⟩
  · rw [Segment.read_of_fits hq hopen hcalm hn, h, List.take_left]
  · rw [Segment.contents_take hq hn, h, List.drop_left]
  · rw [Segment.used_take hq hn]
    omega

end Intake
