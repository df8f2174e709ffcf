import Intake.Queue.Segment
import Intake.Table.Row
/-!
# Frames

What stands on a queue for one row: the number of bytes that follow, then
the row's values and null flags and its record. Numbers have fixed widths
and their least byte first; lists begin with their length. Two lengths
that no row has end the stream: zero when all rows are in, the greatest
when the reading side is to give up.

What follows a length is written by a bincode encoder from outside of this
library, with its usual settings, and this is relied on. Widths are fixed: a
whole number has as many bytes as its type, a count has eight, the number
of a kind of value four, and a truth value one, which is zero or one. The
count of a list comes first, before its elements, and the fields of a row
come in their order with nothing in between. The lengths before frames and
the two marks are the queue's own.
-/

namespace Intake.Frame

/-- The length that ends a stream. -/
def terminator : Nat := 0

/-- The length that tells the reading side to give up. -/
def abortMark : Nat := 0xFFFFFFFF

/-- A length before a frame. -/
def lengthBytes (n : Nat) : Bytes := Bytes.littleEndian 4 n

/-! ## Writing -/

/-- A count of list elements. -/
def countBytes (n : Nat) : Bytes := Bytes.littleEndian 8 n

/-- Bytes with their count. -/
def stringBytes (bs : Bytes) : Bytes := countBytes bs.length ++ bs

/-- The low `8 * width` bits of a number. -/
def wordBytes (width : Nat) (n : Int) : Bytes :=
  Bytes.littleEndian width (n % Nat.pow 256 width).toNat

/-- A value: which kind it is, then what it holds. -/
def valueBytes : Value → Bytes
  | .null => Bytes.littleEndian 4 0
  | .int16 n => Bytes.littleEndian 4 1 ++ wordBytes 2 n.toInt
  | .int32 n => Bytes.littleEndian 4 2 ++ wordBytes 4 n.toInt
  | .int64 n => Bytes.littleEndian 4 3 ++ wordBytes 8 n.toInt
  | .float64 x => Bytes.littleEndian 4 4 ++ Bytes.littleEndian 8 x.bits.toNat
  | .bool b => Bytes.littleEndian 4 5 ++ [if b then 1 else 0]
  | .text bs => Bytes.littleEndian 4 6 ++ stringBytes bs

/-- A row and its record. -/
def encode (row : Row) (raw : Bytes) : Bytes :=
  countBytes row.values.length ++ row.values.flatMap valueBytes
    ++ (countBytes row.nulls.length ++ row.nulls.map fun b => if b then 1 else 0)
    ++ stringBytes raw

/-! ## Reading -/

/-- What can be wrong with a frame. -/
inductive Fault where
  /-- It ends too early. -/
  | truncated
  /-- No kind of value has this number. -/
  | badKind (n : Nat)
  /-- A flag is neither zero nor one. -/
  | badFlag (n : Nat)
  deriving DecidableEq, Repr

/-- The wording of each fault. -/
def Fault.message : Fault → String
  | .truncated => "io error: "
  | .badKind n =>
    "invalid value: integer " ++ tick ++ toString n ++ tick ++ ", expected variant index 0 <= i < 7"
  | .badFlag n => "invalid u8 while decoding bool, expected 0 or 1, found " ++ toString n
where
  /-- The mark on both sides of a number. -/
  tick : String := String.singleton (Char.ofNat 0x60)

/-- Reads something off the front of the bytes. -/
abbrev Reader (α : Type) := Bytes → Except Fault (α × Bytes)

/-- A number of `width` bytes. -/
def takeWord (width : Nat) : Reader Nat := fun bs =>
  if (bs.take width).length < width then .error .truncated
  else .ok (Bytes.unsigned (bs.take width), bs.drop width)

/-- A number of `width` bytes in two's complement. -/
def takeSigned (width : Nat) : Reader Int := fun bs =>
  if (bs.take width).length < width then .error .truncated
  else .ok (Bytes.signed (bs.take width), bs.drop width)

/-- As many things as wanted, latest first onto `acc`. -/
def takeMany {α : Type} (one : Reader α) : Nat → List α → Reader (List α)
  | 0, acc, bs => .ok (acc.reverse, bs)
  | n + 1, acc, bs =>
    match one bs with
    | .error e => .error e
    | .ok (x, bs) => takeMany one n (x :: acc) bs

/-- A list with its count. -/
def takeList {α : Type} (one : Reader α) : Reader (List α) := fun bs =>
  match takeWord 8 bs with
  | .error e => .error e
  | .ok (n, bs) => takeMany one n [] bs

/-- One byte. -/
def takeByte : Reader UInt8
  | [] => .error .truncated
  | b :: bs => .ok (b, bs)

/-- One flag. -/
def takeFlag : Reader Bool
  | [] => .error .truncated
  | b :: bs =>
    if b = 0 then .ok (false, bs) else if b = 1 then .ok (true, bs) else .error (.badFlag b.toNat)

/-- What a reader reads, turned into something else. -/
def mapped {α β : Type} (f : α → β) (r : Reader α) : Reader β := fun bs =>
  match r bs with
  | .error e => .error e
  | .ok (x, bs) => .ok (f x, bs)

/-- One value. -/
def takeValue : Reader Value := fun bs =>
  match takeWord 4 bs with
  | .error e => .error e
  | .ok (kind, bs) =>
    match kind with
    | 0 => .ok (.null, bs)
    | 1 => mapped (fun n => .int16 (Int16.ofInt n)) (takeSigned 2) bs
    | 2 => mapped (fun n => .int32 (Int32.ofInt n)) (takeSigned 4) bs
    | 3 => mapped (fun n => .int64 (Int64.ofInt n)) (takeSigned 8) bs
    | 4 => mapped (fun n => .float64 (.ofBits n)) (takeWord 8) bs
    | 5 => mapped .bool takeFlag bs
    | 6 => mapped .text (takeList takeByte) bs
    | n => .error (.badKind n)

/-- The row and the record of a frame. Bytes after them do not matter. -/
def decode (bs : Bytes) : Except Fault (Row × Bytes) :=
  match takeList takeValue bs with
  | .error e => .error e
  | .ok (values, bs) =>
    match takeList takeFlag bs with
    | .error e => .error e
    | .ok (nulls, bs) =>
      match takeList takeByte bs with
      | .error e => .error e
      | .ok (raw, _) => .ok (⟨values, nulls⟩, raw)

end Intake.Frame
