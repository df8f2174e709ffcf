import Intake.Layout.Basic
import Intake.Numeral.Shortest
import Intake.Record.Basic
import Intake.Record.Buffer
/-!
# Fixed-width records

Every record has the same number of bytes, and its fields lie where the
layout says. Numbers are turned into text here, so that fields of every
format are converted in the same way afterwards. A record that the input
ends inside has no fields and says how much of it there was.
-/

namespace Intake

namespace FieldKind

/-- Bytes without the blanks at their end. -/
def trimBlanks (bs : Bytes) : Bytes := (bs.reverse.dropWhile (· == 0x20)).reverse

/-- Whether a field's bytes are those that stand for NULL; blanks at the
end of character data do not count. -/
def matchesPattern (kind : FieldKind) (bs pattern : Bytes) : Bool :=
  bs == pattern || (kind.isCharacter && trimBlanks bs == trimBlanks pattern)

/-- The text of a field's bytes. -/
def text (kind : FieldKind) (preserveBlanks : Bool) (bs : Bytes) : Bytes :=
  match kind with
  | .char => if preserveBlanks then bs else trimBlanks bs
  | .varchar => bs
  | .integer => Bytes.ofString (toString (Bytes.signed bs))
  | .unsigned => Bytes.ofString (toString (Bytes.unsigned bs))
  | .float =>
    let format := if bs.length = 4 then Numeral.binary32 else Numeral.binary64
    Bytes.ofString (format.text (Bytes.unsigned bs))

end FieldKind

/-- What the bytes of a field come to. -/
def FieldSpec.decode (f : FieldSpec) (preserveBlanks : Bool) (bs : Bytes) : Field :=
  if f.nullIf.any (f.kind.matchesPattern bs) then ⟨[], true⟩
  else ⟨f.kind.text preserveBlanks bs, false⟩

/-- The field of a complete record. -/
def FieldSpec.read (f : FieldSpec) (preserveBlanks : Bool) (record : Bytes) : Field :=
  f.decode preserveBlanks ((record.drop f.offset).take f.length)

/-- A reader of fixed-width records. -/
structure FixedReader where
  source : ByteSource
  buffer : Buffer
  layout : Layout
  preserveBlanks : Bool
  /-- Records read so far. -/
  count : Nat := 0

namespace FixedReader

/-- A reader whose buffer holds one record at least, with the byte that
is kept free. -/
def start (source : ByteSource) (layout : Layout) (preserveBlanks : Bool)
    (bufferSize maxBufferSize : Nat) : FixedReader :=
  let least := layout.stride + 1
  { source := source
    buffer := Buffer.ofSizes (max bufferSize least) (max maxBufferSize least)
    layout := layout
    preserveBlanks := preserveBlanks }

/-- Reads until a record is there, or the input ends. The result is the
number of bytes there are, of one record at most. -/
def gather (r : FixedReader) : Except LoadError Nat × FixedReader :=
  if r.layout.stride ≤ r.buffer.size then (.ok r.layout.stride, r)
  else
    match _h : r.buffer.fill r.source (r.count + 1) with
    | ⟨.error e, buffer, source⟩ => (.error e, { r with buffer := buffer, source := source })
    | ⟨.ok (_ :: _), buffer, source⟩ => gather { r with buffer := buffer, source := source }
    | ⟨.ok [], buffer, source⟩ =>
      (.ok buffer.size, { r with buffer := buffer, source := source })
termination_by r.source.rest.length
decreasing_by exact Buffer.rest_lt_of_fill _h

/-- The next record, or none at the end. -/
def next (r : FixedReader) : Except LoadError (Option Record) × FixedReader :=
  match r.gather with
  | (.error e, r) => (.error e, r)
  | (.ok size, r) =>
    if size = 0 then (.ok none, r)
    else
      let raw := r.buffer.pending.take size
      let r := { r with buffer := r.buffer.consume size, count := r.count + 1 }
      if size < r.layout.stride then
        (.ok (some ⟨r.count, raw, [], some ⟨size, r.layout.stride⟩⟩), r)
      else
        let fields := r.layout.fields.map fun f => f.read r.preserveBlanks raw
        (.ok (some ⟨r.count, raw, fields, none⟩), r)

/-- Passes over `left` of `wanted` records. -/
def skipFrom (wanted : Nat) (r : FixedReader) : Nat → Except LoadError Nat × FixedReader
  | 0 => (.ok wanted, r)
  | left + 1 =>
    match r.gather with
    | (.error e, r) => (.error e, r)
    | (.ok size, r) =>
      if size < r.layout.stride then
        (.error (.skipExceedsInput wanted (wanted - (left + 1))), r)
      else
        skipFrom wanted
          { r with buffer := r.buffer.consume r.layout.stride, count := r.count + 1 } left

/-- Passes over `n` records. -/
def skip (r : FixedReader) (n : Nat) : Except LoadError Nat × FixedReader := skipFrom n r n

end FixedReader
end Intake
