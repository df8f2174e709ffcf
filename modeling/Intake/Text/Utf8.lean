import Intake.Bytes
/-!
# UTF-8

Reading a byte string as UTF-8, in the three ways the loader needs: whole
or not at all (`Utf8.decode?`), with the place of the first fault
(`Utf8.fault?`), and with every fault replaced (`Utf8.lossy`).

The one rule behind them is `Utf8.front`: at the front of a byte string
stands a character, or a run of bytes that starts none, or the beginning
of a character that the text ends inside. A run that starts no character
is as long as it could still have become one, so that a fault never
swallows a byte that is fine on its own.
-/

namespace Intake.Utf8

/-- What stands at the front of a non-empty byte string. -/
inductive Front where
  /-- A character that takes `size` bytes. -/
  | character (scalar : Char) (size : Nat)
  /-- `size` bytes that no character starts with. -/
  | malformed (size : Nat)
  /-- The text ends inside a character. -/
  | truncated
  deriving DecidableEq

/-- Whether a byte continues a character. -/
def isTail (b : UInt8) : Bool := 0x80 ≤ b.toNat && b.toNat ≤ 0xBF

/-- The low six bits that a continuation byte carries. -/
def tailBits (b : UInt8) : Nat := b.toNat % 64

/-- The bounds on the second byte of a character that opens with `b`:
narrower than the continuation bytes where the opening byte alone would
admit an overlong form, a surrogate or a scalar above the last one. -/
def secondBounds (b : Nat) : Nat × Nat :=
  if b = 0xE0 then (0xA0, 0xBF)
  else if b = 0xED then (0x80, 0x9F)
  else if b = 0xF0 then (0x90, 0xBF)
  else if b = 0xF4 then (0x80, 0x8F)
  else (0x80, 0xBF)

/-- Whether `c` may come second after the opening byte `b`. -/
def isSecond (b c : UInt8) : Bool :=
  (secondBounds b.toNat).1 ≤ c.toNat && c.toNat ≤ (secondBounds b.toNat).2

/-- How many bytes a character has that opens with `b`; none opens with
a continuation byte, with `C0`, `C1` or above `F4`. -/
def width? (b : UInt8) : Option Nat :=
  let n := b.toNat
  if n < 0x80 then some 1
  else if 0xC2 ≤ n ∧ n ≤ 0xDF then some 2
  else if 0xE0 ≤ n ∧ n ≤ 0xEF then some 3
  else if 0xF0 ≤ n ∧ n ≤ 0xF4 then some 4
  else none

/-- What stands at the front of `b :: rest`. -/
def front (b : UInt8) (rest : Bytes) : Front :=
  match width? b with
  | none => .malformed 1
  | some 1 => .character (Char.ofNat b.toNat) 1
  | some width =>
    match rest with
    | [] => .truncated
    | c :: rest =>
      if !isSecond b c then .malformed 1
      else if width = 2 then .character (Char.ofNat (b.toNat % 32 * 64 + tailBits c)) 2
      else
        match rest with
        | [] => .truncated
        | d :: rest =>
          if !isTail d then .malformed 2
          else if width = 3 then
            .character (Char.ofNat ((b.toNat % 16 * 64 + tailBits c) * 64 + tailBits d)) 3
          else
            match rest with
            | [] => .truncated
            | e :: _ =>
              if !isTail e then .malformed 3
              else .character (Char.ofNat
                (((b.toNat % 8 * 64 + tailBits c) * 64 + tailBits d) * 64 + tailBits e)) 4

/-- Everything after `size` bytes of `b :: rest`, one byte being gone at
least. -/
def behind (size : Nat) (rest : Bytes) : Bytes := rest.drop (size - 1)

theorem length_behind_le (size : Nat) (rest : Bytes) : (behind size rest).length ≤ rest.length := by
  simp [behind]

/-- The place of the first fault: how many bytes before it are
well-formed, and the bytes at fault. `before` bytes have been read. -/
def faultFrom (before : Nat) : Bytes → Option (Nat × Bytes)
  | [] => none
  | b :: rest =>
    match front b rest with
    | .character _ size => faultFrom (before + size) (behind size rest)
    | .malformed size => some (before, (b :: rest).take size)
    | .truncated => some (before, b :: rest)
termination_by bs => bs.length
decreasing_by
  simp only [List.length_cons]
  exact Nat.lt_succ_of_le (length_behind_le size rest)

/-- The length of the longest well-formed beginning and the bytes at
fault after it; `none` for well-formed text. -/
def fault? (bs : Bytes) : Option (Nat × Bytes) := faultFrom 0 bs

/-- Whether the bytes are UTF-8. -/
def isText (bs : Bytes) : Bool := (fault? bs).isNone

/-- The characters, latest first, with `mark` in the place of each fault. -/
def lossyOnto (mark : Char) (acc : List Char) : Bytes → List Char
  | [] => acc
  | b :: rest =>
    match front b rest with
    | .character c size => lossyOnto mark (c :: acc) (behind size rest)
    | .malformed size => lossyOnto mark (mark :: acc) (behind size rest)
    | .truncated => mark :: acc
termination_by bs => bs.length
decreasing_by
  all_goals
    simp only [List.length_cons]
    exact Nat.lt_succ_of_le (length_behind_le size rest)

/-- The replacement character. -/
def replacement : Char := Char.ofNat 0xFFFD

/-- The text with each fault replaced by one replacement character. -/
def lossy (bs : Bytes) : String := String.ofList (lossyOnto replacement [] bs).reverse

/-- The text, if the bytes are UTF-8. -/
def decode? (bs : Bytes) : Option String :=
  if isText bs then some (lossy bs) else none

/-- The UTF-8 bytes of one scalar value. -/
def encode (c : Char) : Bytes := (String.singleton c).toUTF8.data.toList

/-- The UTF-8 form of bytes that are code points below 256. -/
def ofLatin1 (bs : Bytes) : Bytes :=
  bs.flatMap fun b =>
    if b.toNat < 0x80 then [b]
    else [UInt8.ofNat (0xC0 + b.toNat / 64), UInt8.ofNat (0x80 + b.toNat % 64)]

/-- Whether every byte is an ASCII character, which reads the same in
every encoding the loader knows. -/
def isAscii (bs : Bytes) : Bool := bs.all fun b => b.toNat < 0x80

end Intake.Utf8
