import Intake.Options.Basic
import Intake.Text.Utf8
/-!
# Transcoding

Character data of the input becomes UTF-8. A transcoder says how for each
encoding, or what stands in the way.
-/

namespace Intake

/-- The UTF-8 form of bytes of an encoding, or why they have none. -/
abbrev Transcoder := Encoding → Bytes → Except String Bytes

namespace Transcoder

/-- One byte in hexadecimal. -/
def byteText (b : UInt8) : String := String.ofList ('0' :: 'x' :: Bytes.hexByte b)

/-- What is wrong with bytes that are not UTF-8: the bytes at fault and
the place of the first, from 1. -/
def faultText (valid : Nat) (bad : Bytes) : String :=
  "invalid UTF-8 sequence " ++ String.intercalate " " (bad.map byteText) ++ " at byte "
    ++ toString (valid + 1)

/-- Bytes that are UTF-8, as they are. -/
def checked (bs : Bytes) : Except String Bytes :=
  match Utf8.fault? bs with
  | none => .ok bs
  | some (valid, bad) => .error (faultText valid bad)

/-- The encodings with a name are all known. -/
def known : Transcoder := fun encoding bs =>
  match encoding with
  | .latin1 => .ok (Utf8.ofLatin1 bs)
  | .utf8 => checked bs
  | .sqlAscii => checked bs

end Transcoder
end Intake
