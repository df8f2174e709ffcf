import Intake.Error
/-!
# Ring queues

A ring queue is a segment of memory that two sides share: one writes
bytes, the other reads them in the same order. Two offsets walk around a
fixed number of bytes, one behind the other; where they meet the queue is
empty, so one byte always stays unused.

A write moves all of its bytes or none, and a read likewise. An attempt
that finds too little room or too few bytes leaves the queue as it is and
can be repeated. `contents` is what has been written and not yet read.
-/

namespace Intake

/-- A segment of memory that is used as a queue. -/
structure Segment where
  /-- The number by which the other side finds the segment. -/
  key : Nat
  capacity : Nat
  /-- The next byte to read. -/
  head : Nat := 0
  /-- The next byte to write. -/
  tail : Nat := 0
  /-- The bytes up to the last one ever stored; those after it are zero. -/
  data : Array UInt8 := #[]
  /-- The process at the writing side. -/
  producer : Nat
  /-- Whether that process exists. -/
  producerLives : Bool := true
  /-- Bytes of the segment that have no meaning yet. -/
  reserved : Bytes := List.replicate 24 0
  /-- The segment can still be found by its key. -/
  linked : Bool := true
  deriving Repr

/-- One side of a queue. -/
structure Side where
  /-- The side that made the segment, and removes it when it closes. -/
  owner : Bool := false
  closed : Bool := false
  deriving DecidableEq, Repr

namespace Segment

/-- The offset one byte further on. -/
def advance (q : Segment) (offset : Nat) : Nat := (offset + 1) % q.capacity

/-- The number of bytes written and not yet read. -/
def used (q : Segment) : Nat := (q.tail + q.capacity - q.head) % q.capacity

/-- The number of bytes that can be written. -/
def free (q : Segment) : Nat := q.capacity - 1 - q.used

/-- The byte `i` places after the next to read. -/
def byteAt (q : Segment) (i : Nat) : UInt8 := q.data.getD ((q.head + i) % q.capacity) 0

/-- The bytes written and not yet read, in the order of writing. -/
def contents (q : Segment) : Bytes := (List.range q.used).map q.byteAt

/-- Every byte of the queue, used or not, in the order of offsets. -/
def area (q : Segment) : Bytes :=
  q.data.toList ++ List.replicate (q.capacity - q.data.size) 0

/-- Stores a byte at an offset, if that is less than the capacity. -/
def storeAt (capacity : Nat) (data : Array UInt8) (offset : Nat) (b : UInt8) : Array UInt8 :=
  if offset < data.size then data.setIfInBounds offset b
  else if offset < capacity then (data ++ Array.replicate (offset - data.size) 0).push b
  else data

/-- Stores bytes from an offset on, around the end. -/
def storeFrom (capacity : Nat) (data : Array UInt8) (offset : Nat) : Bytes → Array UInt8
  | [] => data
  | b :: bs => storeFrom capacity (storeAt capacity data offset b) ((offset + 1) % capacity) bs

/-- Writes bytes after the others. There must be room. -/
def store (q : Segment) (bs : Bytes) : Segment :=
  { q with
    data := storeFrom q.capacity q.data q.tail bs
    tail := (q.tail + bs.length) % q.capacity }

/-- The first `n` bytes, and the queue without them. They must be there. -/
def take (q : Segment) (n : Nat) : Bytes × Segment :=
  ((List.range n).map q.byteAt, { q with head := (q.head + n) % q.capacity })

/-! ## Making and finding segments -/

/-- An empty queue. Below two bytes there would be none to use. -/
def create (key producer capacity : Nat) : Except QueueError Segment :=
  if capacity < 2 then .error (.invalidCapacity capacity)
  else
    .ok { key := key, capacity := capacity, producer := producer }

/-- The bytes before the data of a segment. -/
def headerSize : Nat := 64

/-- The number that marks a segment as a queue. -/
def magic : Nat := 0x52514231

/-- The version of the layout. -/
def version : Nat := 1

/-- The file name of a segment. -/
def fileName (key : Nat) : String :=
  "bulkload-queue-" ++ Bytes.hex (Bytes.littleEndian 8 key).reverse

/-- The segment as bytes. -/
def encode (q : Segment) : Bytes :=
  Bytes.littleEndian 4 magic ++ Bytes.littleEndian 4 version ++ Bytes.littleEndian 8 q.capacity
    ++ Bytes.littleEndian 4 q.producer ++ Bytes.littleEndian 4 0
    ++ Bytes.littleEndian 8 q.head ++ Bytes.littleEndian 8 q.tail
    ++ q.reserved ++ q.area

/-- The number in `width` bytes from `offset` on. -/
def word (bs : Bytes) (offset width : Nat) : Nat := Bytes.unsigned ((bs.drop offset).take width)

/-- The segment that bytes hold. `lives` says which processes exist. -/
def decode (key : Nat) (lives : Nat → Bool) (bs : Bytes) : Except QueueError Segment :=
  if bs.length < headerSize then .error (.badMagic key 0)
  else if word bs 0 4 ≠ magic ∨ word bs 4 4 ≠ version then .error (.badMagic key (word bs 0 4))
  else
    let capacity := word bs 8 8
    if capacity < 2 ∨ headerSize + capacity ≠ bs.length then .error (.invalidCapacity capacity)
    else
      .ok
        { key := key
          capacity := capacity
          head := word bs 24 8
          tail := word bs 32 8
          data := (bs.drop headerSize).toArray
          producer := word bs 16 4
          producerLives := lives (word bs 16 4)
          reserved := (bs.drop 40).take 24 }

/-- The segment of a key, if its file is there. -/
def ofFile (key : Nat) (lives : Nat → Bool) (file : Option Bytes) : Except QueueError Segment :=
  match file with
  | none => .error (.io .noSuchFile)
  | some bs => decode key lives bs

/-! ## The two sides -/

/-- Attaches one more side that does not own the segment. -/
def attach (q : Segment) : Except QueueError Side :=
  if q.linked then .ok {} else .error (.io .noSuchFile)

/-- One attempt to write all parts, one after another: whether there was
room. -/
def write (q : Segment) (side : Side) (token : Token) (parts : List Bytes) :
    Except QueueError Bool × Segment :=
  let bs := parts.flatten
  if side.closed then (.error (.closed q.key), q)
  else if q.capacity ≤ bs.length then (.error (.tooLarge bs.length q.capacity), q)
  else
    match token.pending with
    | some kind => (.error (.interrupted kind), q)
    | none => if bs.length ≤ q.free then (.ok true, q.store bs) else (.ok false, q)

/-- One look for `n` bytes: they are taken if all are there. -/
def look (q : Segment) (side : Side) (token : Token) (n : Nat) :
    Except QueueError (Option Bytes) × Segment :=
  if side.closed then (.error (.closed q.key), q)
  else if q.capacity ≤ n then (.error (.tooLarge n q.capacity), q)
  else
    match token.pending with
    | some kind => (.error (.interrupted kind), q)
    | none =>
      if n ≤ q.used then
        match q.take n with
        | (bs, q) => (.ok (some bs), q)
      else (.ok none, q)

/-- Whether it is worth looking again: there must be someone to write. -/
def probe (q : Segment) : Except QueueError Unit :=
  if q.producerLives then .ok () else .error (.peerGone q.producer)

/-- One attempt to read `n` bytes; none if they are not there yet but may
still come. -/
def read (q : Segment) (side : Side) (token : Token) (n : Nat) :
    Except QueueError (Option Bytes) × Segment :=
  match q.look side token n with
  | (.ok none, q) =>
    match q.probe with
    | .ok () => (.ok none, q)
    | .error e => (.error e, q)
  | result => result

/-- Closes a side. The owner's segment cannot be found any more. -/
def close (q : Segment) (side : Side) : Side × Segment :=
  if side.closed then (side, q)
  else ({ side with closed := true }, if side.owner then { q with linked := false } else q)

/-- The producer's process ends. -/
def loseProducer (q : Segment) (pid : Nat) : Segment :=
  { q with producer := pid, producerLives := false }

end Segment
end Intake
