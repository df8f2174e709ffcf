/-!
# Byte strings

Input records, field contents and stored text are byte strings, and a
byte string is a list of bytes: the scanner, the splitter and the codecs
all recurse on it, so proofs about them are inductions on the data.

Two facts about a list of bytes are wanted everywhere and stated here
once: how it relates to text (`Bytes.ofString`) and how it is shown when
it is not text (`Bytes.hex`).
-/

namespace Intake

/-- A byte string. -/
abbrev Bytes := List UInt8

namespace Bytes

/-- The UTF-8 bytes of a text. -/
def ofString (s : String) : Bytes := s.toUTF8.data.toList

/-- The bytes of a text of which every character is below 256, one byte a
character. Only used for ASCII words of the formats. -/
def ascii (s : String) : Bytes := s.toList.map fun c => UInt8.ofNat c.toNat

/-- One lower-case hexadecimal digit. -/
def hexDigit (n : Nat) : Char :=
  if n < 10 then Char.ofNat (48 + n) else Char.ofNat (87 + n)

/-- Two lower-case hexadecimal digits. -/
def hexByte (b : UInt8) : List Char := [hexDigit (b.toNat / 16), hexDigit (b.toNat % 16)]

/-- All bytes as pairs of lower-case hexadecimal digits. -/
def hex (bs : Bytes) : String := String.ofList (bs.flatMap hexByte)

/-- The value of one hexadecimal digit in either case. -/
def hexValue? (c : Char) : Option Nat :=
  let n := c.toNat
  if 48 ≤ n ∧ n ≤ 57 then some (n - 48)
  else if 97 ≤ n ∧ n ≤ 102 then some (n - 87)
  else if 65 ≤ n ∧ n ≤ 70 then some (n - 55)
  else none

/-- Reads pairs of hexadecimal digits; an odd count or any other
character is refused. -/
def ofHex? : List Char → Option Bytes
  | [] => some []
  | [_] => none
  | hi :: lo :: rest =>
    match hexValue? hi, hexValue? lo, ofHex? rest with
    | some h, some l, some bs => some (UInt8.ofNat (16 * h + l) :: bs)
    | _, _, _ => none

/-- Whether `needle` occurs in `bs` at its front. -/
def startsWith (bs needle : Bytes) : Bool := needle.isPrefixOf bs

/-- Whether a non-empty `needle` occurs anywhere in `bs`. -/
def occursIn (needle : Bytes) : Bytes → Bool
  | [] => false
  | b :: bs => !needle.isEmpty && (startsWith (b :: bs) needle || occursIn needle bs)

/-- `width` bytes of a number, least significant first. Higher digits are
dropped. -/
def littleEndian : Nat → Nat → Bytes
  | 0, _ => []
  | width + 1, n => UInt8.ofNat (n % 256) :: littleEndian width (n / 256)

/-- The number that bytes write, least significant first. -/
def unsigned : Bytes → Nat
  | [] => 0
  | b :: bs => b.toNat + 256 * unsigned bs

/-- The number that bytes write in two's complement, least significant
first. -/
def signed (bs : Bytes) : Int :=
  let n := unsigned bs
  let span := Nat.pow 256 bs.length
  if 2 * n < span then n else (n : Int) - span

/-! ## Laws of the little-endian form -/

@[simp] theorem length_littleEndian (width n : Nat) : (littleEndian width n).length = width := by
  induction width generalizing n with
  | zero => rfl
  | succ w ih => simp [littleEndian, ih]

theorem unsigned_littleEndian (width n : Nat) :
    unsigned (littleEndian width n) = n % Nat.pow 256 width := by
  induction width generalizing n with
  | zero => simp [littleEndian, unsigned, Nat.mod_one]
  | succ w ih =>
    have h : (UInt8.ofNat (n % 256)).toNat = n % 256 := by
      simp
    have hp : Nat.pow 256 (w + 1) = 256 * Nat.pow 256 w := Nat.mul_comm _ _
    rw [littleEndian, unsigned, ih, h, hp, Nat.mod_mul]

theorem unsigned_lt (bs : Bytes) : unsigned bs < Nat.pow 256 bs.length := by
  induction bs with
  | nil => simp [unsigned]
  | cons b bs ih =>
    have hb : b.toNat < 256 := b.toNat_lt
    have hp : Nat.pow 256 (bs.length + 1) = Nat.pow 256 bs.length * 256 := rfl
    rw [unsigned, List.length_cons, hp]
    omega

end Bytes
end Intake
