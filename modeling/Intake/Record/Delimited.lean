import Intake.Csv
import Intake.Options.Dialect
import Intake.Record.Basic
import Intake.Record.Buffer
/-!
# Delimited records

A record ends at the first line feed outside quotes. It is found first
(`Region`, `scan`), across as many reads as it takes, and divided into
fields after that (`split`), so that a delimiter of several bytes is
never compared with the end of what happens to have been read. Passing
records over uses the same scan, so a line feed within quotes does not
count as an end there either.
-/

namespace Intake
namespace Dialect

/-- The escape byte within quotes, where it is another than the quote. -/
def quotedEscape (d : Dialect) : Option UInt8 :=
  match d.quote, d.escape with
  | some q, some e => if q = e then none else some e
  | _, _ => none

/-- The escape byte where there are no quotes. -/
def plainEscape (d : Dialect) : Option UInt8 := if d.quote.isNone then d.escape else none

end Dialect

/-! ## Finding the end of a record -/

/-- Where in a record a byte stands. -/
inductive Region where
  | outside
  | quoted
  /-- After an escape within quotes. -/
  | quotedEscape
  /-- After an escape where there are no quotes. -/
  | escaped
  deriving DecidableEq, Repr

namespace Region

/-- The region after a byte, or nothing after the byte that ends the
record. -/
def next (d : Dialect) (r : Region) (b : UInt8) : Option Region :=
  match r with
  | outside =>
    if b = Csv.lineFeed then none
    else if some b = d.quote then some quoted
    else if some b = d.plainEscape then some escaped
    else some outside
  | quoted =>
    if some b = d.quotedEscape then some quotedEscape
    else if some b = d.quote then some outside
    else some quoted
  | quotedEscape => some quoted
  | escaped => some outside

/-- Whether a record cannot end here. -/
def isQuoted : Region → Bool
  | quoted | quotedEscape => true
  | outside | escaped => false

end Region

/-- What looking for the end of a record in some bytes comes to. -/
inductive Scan where
  /-- The record has this many bytes, its end included. -/
  | found (size : Nat)
  /-- It has more bytes than these. -/
  | unfinished (size : Nat) (region : Region)
  deriving DecidableEq, Repr

/-- Looks for the end of a record, `size` bytes of which have been seen. -/
def scan (d : Dialect) (size : Nat) (region : Region) : Bytes → Scan
  | [] => .unfinished size region
  | b :: bs =>
    match region.next d b with
    | none => .found (size + 1)
    | some region => scan d (size + 1) region bs

/-! ## Dividing a record into fields -/

/-- A record without the line feed at its end, and without a carriage
return before that. -/
def stripEnd (raw : Bytes) : Bytes :=
  match raw.reverse with
  | b :: c :: rest =>
    if b = Csv.lineFeed then
      if c = Csv.carriageReturn then rest.reverse else (c :: rest).reverse
    else if b = Csv.carriageReturn then (c :: rest).reverse
    else raw
  | [b] => if b = Csv.lineFeed ∨ b = Csv.carriageReturn then [] else raw
  | [] => []

/-- The byte that an escaped byte stands for. -/
def unescape (b : UInt8) : UInt8 :=
  if b = 0x6E then 0x0A
  else if b = 0x72 then 0x0D
  else if b = 0x74 then 0x09
  else if b = 0x62 then 0x08
  else if b = 0x66 then 0x0C
  else if b = 0x76 then 0x0B
  else b

/-- A division of a record into fields, half-way. -/
structure Splitting where
  /-- The fields before the current one, latest first. -/
  done : List Field := []
  /-- Whether the marker is content, for the fields from the current one on. -/
  forced : List Bool
  /-- The current field's bytes as read, latest first. -/
  raw : Bytes := []
  /-- Its bytes unescaped, latest first. -/
  data : Bytes := []
  quoted : Bool := false
  deriving Repr

namespace Splitting

/-- One byte as read that stands for itself. -/
def keep (s : Splitting) (b : UInt8) : Splitting :=
  { s with raw := b :: s.raw, data := b :: s.data }

/-- Two bytes as read that stand for one. -/
def pair (s : Splitting) (a b stands : UInt8) : Splitting :=
  { s with raw := b :: a :: s.raw, data := stands :: s.data }

/-- A quote, after which the field is or is not within quotes. -/
def toggle (s : Splitting) (b : UInt8) (quoted : Bool) : Splitting :=
  { s with raw := b :: s.raw, quoted := quoted }

/-- The current field is complete: it is NULL where its bytes as read are
the marker, unless that is content. -/
def close (s : Splitting) (d : Dialect) : Splitting :=
  let isNull := !(s.forced.headD false) && s.raw.reverse == d.nullMarker
  { done := ⟨s.data.reverse, isNull⟩ :: s.done, forced := s.forced.tail }

/-- The fields of a complete record. -/
def fields (s : Splitting) (d : Dialect) : List Field := (s.close d).done.reverse

/-- One round of dividing: what is at the front of a byte and those after
it is taken off them. -/
def round (d : Dialect) (s : Splitting) (b : UInt8) (rest : Bytes) : Splitting × Bytes :=
  if s.quoted then
    match rest with
    | c :: rest' =>
      if some b = d.quotedEscape ∧ (some c = d.quote ∨ some c = d.quotedEscape) then
        (s.pair b c c, rest')
      else if some b = d.quote then
        if d.quotedEscape.isNone ∧ c = b then (s.pair b c b, rest')
        else (s.toggle b false, c :: rest')
      else (s.keep b, c :: rest')
    | [] => if some b = d.quote then (s.toggle b false, []) else (s.keep b, [])
  else if d.delimiter.isPrefixOf (b :: rest) then
    (s.close d, (b :: rest).drop d.delimiter.length)
  else if some b = d.quote then (s.toggle b true, rest)
  else if some b = d.plainEscape then
    match rest with
    | c :: rest' => (s.pair b c (unescape c), rest')
    | [] => (s.keep b, [])
  else (s.keep b, rest)

/-- A round gets further, if a delimiter takes it further. -/
theorem length_round_lt (s : Splitting) {d : Dialect} (h : d.delimiter ≠ []) (b : UInt8)
    (rest : Bytes) : (s.round d b rest).2.length < (b :: rest).length := by
  have hdrop : ((b :: rest).drop d.delimiter.length).length < (b :: rest).length := by
    have hpos := List.length_pos_iff.mpr h
    simp only [List.length_drop, List.length_cons]
    omega
  cases rest <;>
    simp only [round] <;>
    (repeat' split) <;>
    first
      | exact hdrop
      | simp only [List.length_cons, List.length_nil]
        omega

/-- What comes of a division and the bytes before it: another round's, as
long as there are bytes, or the fields. -/
def advance (d : Dialect) : Splitting × Bytes → (Splitting × Bytes) ⊕ List Field
  | (s, []) => .inr (s.fields d)
  | (s, b :: rest) => .inl (s.round d b rest)

end Splitting

/-- Divides the rest of a record, its end stripped, into fields, one round
after another. The rounds need not end: an empty delimiter is found again
where it has just been found. -/
def splitLoop (d : Dialect) (s : Splitting) (bs : Bytes) : List Field :=
  Id.run (repeatM (fun x => pure (Splitting.advance d x)) (s, bs))

/-- The same where every round gets further, so that they end. -/
def splitFrom (d : Dialect) (h : d.delimiter ≠ []) (s : Splitting) : Bytes → List Field
  | [] => s.fields d
  | b :: rest =>
    match _h : s.round d b rest with
    | (next, left) => splitFrom d h next left
termination_by bs => bs.length
decreasing_by
  have hlt := s.length_round_lt h b rest
  rwa [_h] at hlt

/-- The fields of a record, its end stripped. The flags say for which
fields the NULL marker is content. With an empty delimiter this ends only
if the rounds do. -/
def split (d : Dialect) (forced : List Bool) (bs : Bytes) : List Field :=
  if h : d.delimiter = [] then splitLoop d { forced := forced } bs
  else splitFrom d h { forced := forced } bs

/-! ## Reading records -/

/-- A reader of delimited records. -/
structure DelimitedReader where
  source : ByteSource
  buffer : Buffer
  dialect : Dialect
  /-- For each field, whether the NULL marker is content. -/
  forced : List Bool
  /-- Records read so far. -/
  count : Nat := 0

namespace DelimitedReader

/-- The number of bytes of the next record, or none at the end of the
input, with the reader that has read that far. `fresh` are pending bytes
that have not been looked at, `size` bytes before them have. -/
def measureFrom (r : DelimitedReader) (size : Nat) (region : Region) (fresh : Bytes) :
    Except LoadError (Option Nat) × DelimitedReader :=
  match scan r.dialect size region fresh with
  | .found size => (.ok (some size), r)
  | .unfinished size region =>
    match _h : r.buffer.fill r.source (r.count + 1) with
    | ⟨.error e, buffer, source⟩ => (.error e, { r with buffer := buffer, source := source })
    | ⟨.ok (b :: bs), buffer, source⟩ =>
      measureFrom { r with buffer := buffer, source := source } size region (b :: bs)
    | ⟨.ok [], buffer, source⟩ =>
      let r := { r with buffer := buffer, source := source }
      if size = 0 then (.ok none, r)
      else if region.isQuoted then (.error (.unterminatedQuote (r.count + 1)), r)
      else
        match r.buffer.terminate Csv.lineFeed (r.count + 1) with
        | (.error e, buffer) => (.error e, { r with buffer := buffer })
        | (.ok (), buffer) => (.ok (some (size + 1)), { r with buffer := buffer })
termination_by r.source.rest.length
decreasing_by exact Buffer.rest_lt_of_fill _h

/-- The number of bytes of the next record, or none at the end. -/
def measure (r : DelimitedReader) : Except LoadError (Option Nat) × DelimitedReader :=
  r.measureFrom 0 .outside r.buffer.pending

/-- The next record, or none at the end. -/
def next (r : DelimitedReader) : Except LoadError (Option Record) × DelimitedReader :=
  match r.measure with
  | (.error e, r) => (.error e, r)
  | (.ok none, r) => (.ok none, r)
  | (.ok (some size), r) =>
    let raw := r.buffer.pending.take size
    let r := { r with buffer := r.buffer.consume size, count := r.count + 1 }
    (.ok (some ⟨r.count, raw, split r.dialect r.forced (stripEnd raw), none⟩), r)

/-- Passes over `left` of `wanted` records. -/
def skipFrom (wanted : Nat) (r : DelimitedReader) : Nat → Except LoadError Nat × DelimitedReader
  | 0 => (.ok wanted, r)
  | left + 1 =>
    match r.measure with
    | (.error e, r) => (.error e, r)
    | (.ok none, r) => (.error (.skipExceedsInput wanted (wanted - (left + 1))), r)
    | (.ok (some size), r) =>
      skipFrom wanted { r with buffer := r.buffer.consume size, count := r.count + 1 } left

/-- Passes over `n` records. -/
def skip (r : DelimitedReader) (n : Nat) : Except LoadError Nat × DelimitedReader :=
  skipFrom n r n

end DelimitedReader
end Intake
