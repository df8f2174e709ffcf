import Intake.Bytes
/-!
# Comma-separated records

The form in which rows leave the loader: fields joined by commas, a line
feed after each record. A field is quoted only where it must be, a quote
inside it is written twice, and a record without any byte is written as a
pair of quotes so that its line is not empty.

The rules are those of a csv writer from outside of this library, with its
usual settings, and three things about it are relied on. It puts quotes
around exactly those fields in which there is a comma, a quote, a line feed
or a carriage return (`needsQuotes`); it doubles a quote within them
(`doubled`); and it ends a record with a line feed alone.

`Csv.line` writes one record. `Csv.Sheet` writes one after another, holds
all of them to the number of fields of the first, and says what is in its
output when a record of another length is refused half-way.
-/

namespace Intake.Csv

/-- The byte between fields. -/
def comma : UInt8 := 0x2C

/-- The byte around a quoted field. -/
def quote : UInt8 := 0x22

/-- The byte after a record. -/
def lineFeed : UInt8 := 0x0A

/-- The byte before the line feed in texts of some systems. -/
def carriageReturn : UInt8 := 0x0D

/-- Whether a field must be quoted to be read back. -/
def needsQuotes (field : Bytes) : Bool :=
  field.any fun b => b == comma || b == quote || b == lineFeed || b == carriageReturn

/-- A field's bytes with each quote written twice. -/
def doubled (field : Bytes) : Bytes :=
  field.flatMap fun b => if b == quote then [b, b] else [b]

/-- A field as it stands in a record. -/
def encodeField (field : Bytes) : Bytes :=
  if needsQuotes field then quote :: doubled field ++ [quote] else field

/-- The fields of a record, joined. -/
def encodeFields (fields : List Bytes) : Bytes :=
  match fields with
  | [] => []
  | f :: fs => encodeField f ++ fs.flatMap fun g => comma :: encodeField g

/-- One record with its line feed. -/
def line (fields : List Bytes) : Bytes :=
  let body := encodeFields fields
  if body.isEmpty then [quote, quote, lineFeed] else body ++ [lineFeed]

/-! ## Records in sequence -/

/-- A sheet being written. -/
structure Sheet where
  /-- The bytes written and not yet handed on. -/
  output : Bytes := []
  /-- The number of fields of the first record. -/
  width : Option Nat := none
  /-- Fields of the record in progress. -/
  started : Nat := 0
  /-- The last field of the record in progress still lacks its closing
  quote. -/
  openQuote : Bool := false
  /-- The record in progress has no byte yet. -/
  bare : Bool := true
  deriving DecidableEq, Repr

/-- A record of another length than the first. -/
structure LengthMismatch where
  found : Nat
  expected : Nat
  deriving DecidableEq, Repr

/-- The wording of a mismatch. -/
def LengthMismatch.message (m : LengthMismatch) : String :=
  "CSV error: found record with " ++ toString m.found
    ++ " fields, but the previous record has " ++ toString m.expected ++ " fields"

namespace Sheet

/-- The closing quote that the last field still lacks. -/
def closing (s : Sheet) : Bytes := if s.openQuote then [quote] else []

/-- Appends one field to the record in progress. -/
def field (s : Sheet) (f : Bytes) : Sheet :=
  let separator := if s.started = 0 then [] else s.closing ++ [comma]
  let quoted := needsQuotes f
  let body := if quoted then quote :: doubled f else f
  { s with
    output := s.output ++ separator ++ body
    started := s.started + 1
    openQuote := quoted
    bare := s.bare && separator.isEmpty && body.isEmpty }

/-- Ends the record in progress, unless its length is not that of the
first one; then its fields stay as they are, unfinished. -/
def endRecord (s : Sheet) : Except LengthMismatch Unit × Sheet :=
  match s.width with
  | some n =>
    if n = s.started then (.ok (), finished s) else (.error ⟨s.started, n⟩, s)
  | none => (.ok (), finished { s with width := some s.started })
where
  /-- The sheet after the line feed. -/
  finished (s : Sheet) : Sheet :=
    { s with
      output := s.output ++ (if s.bare then [quote, quote] else s.closing) ++ [lineFeed]
      started := 0
      openQuote := false
      bare := true }

/-- Writes one record: apart from the output, which it is added to as a
whole, because each addition copies what is there. -/
def record (s : Sheet) (fields : List Bytes) : Except LengthMismatch Unit × Sheet :=
  match (fields.foldl field { s with output := [] }).endRecord with
  | (outcome, t) => (outcome, { t with output := s.output ++ t.output })

/-- Hands the written bytes on. -/
def drain (s : Sheet) : Bytes × Sheet := (s.output, { s with output := [] })

end Sheet
end Intake.Csv
