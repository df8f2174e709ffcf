import Intake.Record.Source
/-!
# The record buffer

Input that has been read and not yet been divided into records waits in
an arena. Records are taken off its front, new bytes come in at its end,
and one byte after the end is always kept free, so that a line feed can
be put there when the input ends without one. An arena that is full is
first slid, so that its pending bytes start at its front; only a record
that already starts there makes it grow, to twice its size or as far as
it may.

The bytes are kept as two lists on either side of the cursor, so that
taking bytes off and adding bytes cost what they move. `pending` and
`arena` say what the lists stand for.
-/

namespace Intake

/-- An arena of unread input. -/
structure Buffer where
  /-- The bytes before the cursor, latest first. -/
  behind : Bytes := []
  /-- The first pending bytes. -/
  front : Bytes := []
  /-- The other pending bytes, latest first. -/
  back : Bytes := []
  /-- What stands after the pending bytes from earlier; all zero after
  that. -/
  beyond : Bytes := []
  /-- Where the pending bytes start. -/
  cursor : Nat := 0
  /-- Where they end. -/
  used : Nat := 0
  /-- The size of the arena. -/
  capacity : Nat
  /-- The size it may grow to. -/
  max : Nat
  /-- The source has reported its end. -/
  ended : Bool := false
  deriving DecidableEq, Repr

namespace Buffer

/-- An empty arena. It has room for two bytes at least. -/
def ofSizes (capacity limit : Nat) : Buffer :=
  { capacity := Nat.max capacity 2, max := Nat.max limit (Nat.max capacity 2) }

/-- The unread input. -/
def pending (b : Buffer) : Bytes :=
  if b.back.isEmpty then b.front else b.front ++ b.back.reverse

/-- The number of bytes of unread input. -/
def size (b : Buffer) : Nat := b.used - b.cursor

/-- Every byte of the arena that is known not to be zero, in place. -/
def arena (b : Buffer) : Bytes := b.behind.reverse ++ b.pending ++ b.beyond

/-- The bytes of the arena from `start` to `stop`. -/
def slice (b : Buffer) (start stop : Nat) : Bytes :=
  let known := (b.arena.take stop).drop start
  known ++ List.replicate (stop - start - known.length) 0

/-- Takes `n` pending bytes off the front. -/
def consume (b : Buffer) (n : Nat) : Buffer :=
  let p := b.pending
  { b with
    behind := (p.take n).reverse ++ b.behind
    front := p.drop n
    back := []
    cursor := b.cursor + n }

/-- Adds bytes after the pending ones. -/
def push (b : Buffer) (bs : Bytes) : Buffer :=
  { b with
    back := bs.reverse ++ b.back
    beyond := b.beyond.drop bs.length
    used := b.used + bs.length }

/-- Moves the pending bytes to the front of the arena. What they leave
behind stays where it was. -/
def slide (b : Buffer) : Buffer :=
  let p := b.pending
  { b with
    behind := []
    front := p
    back := []
    beyond := b.arena.drop (b.used - b.cursor)
    cursor := 0
    used := b.used - b.cursor }

/-- Whether a byte can be added with one more left free. -/
def hasRoom (b : Buffer) : Bool := 2 ≤ b.capacity - b.used

/-- Makes the arena larger, if it may be. -/
def grow (b : Buffer) (record : Nat) : Except LoadError Unit × Buffer :=
  if b.max ≤ b.capacity then (.error (.recordTooLarge record b.max), b)
  else (.ok (), { b with capacity := min (2 * b.capacity) b.max })

/-- Makes room for a byte. -/
def makeRoom (b : Buffer) (record : Nat) : Except LoadError Unit × Buffer :=
  if b.hasRoom then (.ok (), b)
  else
    let b := if b.cursor = 0 then b else b.slide
    if b.hasRoom then (.ok (), b) else b.grow record

/-- What filling the buffer comes to. -/
structure Filled where
  /-- The bytes added, none at the end of the input. -/
  outcome : Except LoadError Bytes
  buffer : Buffer
  source : ByteSource

/-- Reads once from the source. The record's number is only for the
message about a record that does not fit. -/
def fill (b : Buffer) (s : ByteSource) (record : Nat) : Filled :=
  if b.ended then ⟨.ok [], b, s⟩
  else
    match b.makeRoom record with
    | (.error e, b) => ⟨.error e, b, s⟩
    | (.ok (), b) =>
      match s.read (b.capacity - 1 - b.used) with
      | (.bytes bs, s) => ⟨.ok bs, b.push bs, s⟩
      | (.ended, s) => ⟨.ok [], { b with ended := true }, s⟩
      | (.failed e, s) => ⟨.error (.io e), b, s⟩

/-- Adds the byte that the input ends without. -/
def terminate (b : Buffer) (byte : UInt8) (record : Nat) : Except LoadError Unit × Buffer :=
  match b.makeRoom record with
  | (.error e, b) => (.error e, b)
  | (.ok (), b) => (.ok (), b.push [byte])

/-! ## What the operations do to the pending bytes -/

theorem pending_eq (b : Buffer) : b.pending = b.front ++ b.back.reverse := by
  unfold pending
  split
  · rename_i h
    simp [List.isEmpty_iff.mp h]
  · rfl

@[simp] theorem pending_consume (b : Buffer) (n : Nat) :
    (b.consume n).pending = b.pending.drop n := by
  simp [consume, pending_eq]

@[simp] theorem pending_push (b : Buffer) (bs : Bytes) :
    (b.push bs).pending = b.pending ++ bs := by
  simp [push, pending_eq]

@[simp] theorem pending_slide (b : Buffer) : b.slide.pending = b.pending := by
  simp [slide, pending_eq]

/-- The bytes that a fill adds come off the source. -/
theorem rest_of_fill {b b' : Buffer} {s s' : ByteSource} {record : Nat} {bs : Bytes}
    (h : b.fill s record = ⟨.ok bs, b', s'⟩) : s.rest = bs ++ s'.rest := by
  unfold fill at h
  split at h
  · cases h
    rfl
  · split at h
    · cases h
    · split at h
      · rename_i hread
        cases h
        exact ByteSource.read_bytes hread
      · rename_i hread
        cases h
        exact (ByteSource.read_ended hread) ▸ rfl
      · cases h

/-- A fill that adds bytes leaves the source with fewer. -/
theorem rest_lt_of_fill {b b' : Buffer} {s s' : ByteSource} {record : Nat} {x : UInt8}
    {bs : Bytes} (h : b.fill s record = ⟨.ok (x :: bs), b', s'⟩) :
    s'.rest.length < s.rest.length := by
  have hlen := congrArg List.length (rest_of_fill h)
  simp only [List.length_append, List.length_cons] at hlen
  omega

end Buffer
end Intake
