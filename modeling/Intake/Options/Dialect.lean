import Intake.Error
/-!
# Dialects of delimited input

The bytes that divide a delimited input, and which of them may stand
together. `Dialect.check` refuses a dialect in which a delimiter, a
quote, an escape or the NULL marker could be taken for one another.
-/

namespace Intake

/-- The bytes that divide and mark fields of a delimited input. -/
structure Dialect where
  /-- One to three bytes between fields. -/
  delimiter : Bytes
  /-- The byte around a quoted field. -/
  quote : Option UInt8
  /-- The byte that makes the next one literal; inside quotes only where
  there is a quote. -/
  escape : Option UInt8
  /-- The content of a field that stands for NULL. -/
  nullMarker : Bytes
  /-- Columns in which the marker is content. -/
  forceNotNull : List String
  deriving DecidableEq, Repr

namespace Dialect

/-- Comma-separated fields in double quotes, nothing for NULL. -/
def csv : Dialect := ⟨[0x2C], some 0x22, some 0x22, [], []⟩

/-- Tab-separated fields with a backslash for escape and before the
letter of NULL. -/
def text : Dialect := ⟨[0x09], none, some 0x5C, [0x5C, 0x4E], []⟩

/-- Whether a byte ends lines. -/
def isLineEnd (b : UInt8) : Bool := b == 0x0D || b == 0x0A

/-- Bytes that no delimiter may hold because option values and escapes
are written with them: lower-case letters, digits, the backslash. -/
def isReserved (b : UInt8) : Bool :=
  (0x61 ≤ b.toNat && b.toNat ≤ 0x7A) || (0x30 ≤ b.toNat && b.toNat ≤ 0x39) || b == 0x5C

/-- What one of the single bytes `title` must not be. -/
def checkByte (delimiter : Bytes) (title : String) : Option UInt8 → Except LoadError Unit
  | none => .ok ()
  | some b =>
    if delimiter.contains b then
      .error (.config ("DELIMITER and " ++ title ++ " must be different"))
    else if isLineEnd b then
      .error (.config (title ++ " cannot be newline or carriage return"))
    else .ok ()

/-- What keeps a dialect from being usable, or nothing. -/
def check (d : Dialect) : Except LoadError Unit :=
  if d.delimiter.isEmpty || 3 < d.delimiter.length then
    .error (.config "DELIMITER must be 1 to 3 bytes")
  else if d.delimiter.any isLineEnd then
    .error (.config "DELIMITER cannot contain newline or carriage return")
  else if d.delimiter.any isReserved then
    .error (.config "DELIMITER cannot contain lower-case letters, digits or backslash")
  else if d.nullMarker.any isLineEnd then
    .error (.config "NULL cannot contain newline or carriage return")
  else if Bytes.occursIn d.delimiter d.nullMarker || Bytes.occursIn d.nullMarker d.delimiter then
    .error (.config "NULL must not overlap the DELIMITER")
  else
    match checkByte d.delimiter "QUOTE" d.quote with
    | .error e => .error e
    | .ok () => checkByte d.delimiter "ESCAPE" d.escape

end Dialect
end Intake
