import Intake.Numeral.Integer
import Intake.Text.Utf8
/-!
# JSON

The notation in which the two processes of a parallel load tell each
other what to do and what was done. `Json.parse?` reads a complete
document, `Json.text` writes one on one line.

A string of a document may hold bytes or escapes that stand for no
character. That is a fault only where the string is used, so a string
that is read is kept with the question whether it is text; and an object
in which such a string is a key can be passed over, but not looked into
(`Json.sealed`).
-/

namespace Intake

/-- A JSON value. -/
inductive Json where
  | null
  | bool (b : Bool)
  /-- A number without sign, fraction and exponent. -/
  | count (n : Nat)
  /-- Any other number. -/
  | number
  /-- A string, if it is text. -/
  | string (s : Option String)
  | array (items : List Json)
  /-- The members in order; keys may repeat. -/
  | object (members : List (String × Json))
  /-- An object with a key that is not text. -/
  | sealed
  deriving Repr

namespace Json

/-! ## Writing -/

/-- How a character stands in a string. -/
def escapeChar (c : Char) : List Char :=
  if c = '"' then ['\\', '"']
  else if c = '\\' then ['\\', '\\']
  else if c = '\x08' then ['\\', 'b']
  else if c = '\x0C' then ['\\', 'f']
  else if c = '\n' then ['\\', 'n']
  else if c = '\r' then ['\\', 'r']
  else if c = '\t' then ['\\', 't']
  else if c.toNat < 0x20 then '\\' :: 'u' :: '0' :: '0' :: Bytes.hexByte (UInt8.ofNat c.toNat)
  else [c]

/-- A string in quotes. -/
def quoted (s : String) : String :=
  String.ofList ('"' :: s.toList.flatMap escapeChar ++ ['"'])

mutual

/-- A value on one line. Numbers other than counts and sealed objects are
never written. -/
def text : Json → String
  | .null => "null"
  | .bool b => if b then "true" else "false"
  | .count n => toString n
  | .number => "0"
  | .string s => quoted (s.getD "")
  | .array items => "[" ++ String.intercalate "," (texts items) ++ "]"
  | .object members => "\x7b" ++ String.intercalate "," (memberTexts members) ++ "\x7d"
  | .sealed => "\x7b\x7d"

/-- Several values. -/
def texts : List Json → List String
  | [] => []
  | x :: xs => text x :: texts xs

/-- The members of an object. -/
def memberTexts : List (String × Json) → List String
  | [] => []
  | (key, value) :: rest => (quoted key ++ ":" ++ text value) :: memberTexts rest

end

/-! ## Reading -/

/-- Without the blanks at the front. -/
def skipBlanks (bs : Bytes) : Bytes :=
  bs.dropWhile fun b => b == 0x20 || b == 0x0A || b == 0x0D || b == 0x09

/-- Whether a byte is a decimal digit. -/
def isDigit (b : UInt8) : Bool := 0x30 ≤ b.toNat && b.toNat ≤ 0x39

/-- The digits at the front, at least one. -/
def takeDigits? (bs : Bytes) : Option (Bytes × Bytes) :=
  let digits := bs.takeWhile isDigit
  if digits.isEmpty then none else some (digits, bs.dropWhile isDigit)

/-- The digits before a fraction: a zero alone, or not led by one. -/
def takeWhole? (bs : Bytes) : Option (Bytes × Bytes) :=
  match bs with
  | 0x30 :: rest => if (rest.take 1).any isDigit then none else some ([0x30], rest)
  | _ => takeDigits? bs

/-- A fraction, if one begins here: whether there is one, and the rest. -/
def takeFraction? (bs : Bytes) : Option (Bool × Bytes) :=
  match bs with
  | 0x2E :: rest => (takeDigits? rest).map fun p => (true, p.2)
  | _ => some (false, bs)

/-- An exponent, if one begins here: whether there is one, and the rest. -/
def takeExponent? (bs : Bytes) : Option (Bool × Bytes) :=
  match bs with
  | b :: rest =>
    if b == 0x65 || b == 0x45 then
      let rest := match rest with
        | s :: more => if s == 0x2B || s == 0x2D then more else s :: more
        | [] => []
      (takeDigits? rest).map fun p => (true, p.2)
    else some (false, bs)
  | [] => some (false, bs)

/-- A number. -/
def takeNumber? (bs : Bytes) : Option (Json × Bytes) :=
  let (negative, rest) := match bs with
    | 0x2D :: rest => (true, rest)
    | _ => (false, bs)
  match takeWhole? rest with
  | none => none
  | some (digits, rest) =>
    match takeFraction? rest with
    | none => none
    | some (fraction, rest) =>
      match takeExponent? rest with
      | none => none
      | some (exponent, rest) =>
        if negative || fraction || exponent then some (.number, rest)
        else
          match Numeral.count? (digits.map fun b => Char.ofNat b.toNat) with
          | some n => some (.count n, rest)
          | none => some (.number, rest)

/-- A piece of a string: a byte of it, or a code unit. -/
inductive Piece where
  | byte (b : UInt8)
  | unit (n : Nat)

/-- The byte that a letter after a backslash stands for. -/
def escaped? (letter : UInt8) : Option UInt8 :=
  if letter == 0x22 || letter == 0x5C || letter == 0x2F then some letter
  else if letter == 0x62 then some 0x08
  else if letter == 0x66 then some 0x0C
  else if letter == 0x6E then some 0x0A
  else if letter == 0x72 then some 0x0D
  else if letter == 0x74 then some 0x09
  else none

/-- The code unit that four hexadecimal digits write. -/
def codeUnit? (digits : Bytes) : Option Nat :=
  (digits.mapM fun b => Bytes.hexValue? (Char.ofNat b.toNat)).map
    (·.foldl (fun n d => 16 * n + d) 0)

/-- The pieces of a string up to its closing quote, latest first. -/
def takePieces? (acc : List Piece) : Bytes → Option (List Piece × Bytes)
  | [] => none
  | 0x22 :: rest => some (acc, rest)
  | 0x5C :: 0x75 :: a :: b :: c :: d :: rest =>
    match codeUnit? [a, b, c, d] with
    | some n => takePieces? (.unit n :: acc) rest
    | none => none
  | 0x5C :: letter :: rest =>
    match escaped? letter with
    | some b => takePieces? (.byte b :: acc) rest
    | none => none
  | 0x5C :: [] => none
  | b :: rest => if b.toNat < 0x20 then none else takePieces? (.byte b :: acc) rest

/-- Whether a code unit opens a pair. -/
def isHigh (n : Nat) : Bool := 0xD800 ≤ n && n < 0xDC00

/-- Whether a code unit closes a pair. -/
def isLow (n : Nat) : Bool := 0xDC00 ≤ n && n < 0xE000

/-- The bytes of the pieces; none where a code unit stands alone that
needs another. -/
def pieceBytes? : List Piece → Option Bytes
  | [] => some []
  | .byte b :: rest => (pieceBytes? rest).map (b :: ·)
  | .unit n :: .unit m :: rest =>
    if isHigh n then
      if isLow m then
        (pieceBytes? rest).map
          (Utf8.encode (Char.ofNat (0x10000 + (n - 0xD800) * 0x400 + (m - 0xDC00))) ++ ·)
      else none
    else if isLow n then none
    else (pieceBytes? (.unit m :: rest)).map (Utf8.encode (Char.ofNat n) ++ ·)
  | .unit n :: rest =>
    if isHigh n || isLow n then none
    else (pieceBytes? rest).map (Utf8.encode (Char.ofNat n) ++ ·)

/-- A string, its opening quote gone. -/
def takeString? (bs : Bytes) : Option (Option String × Bytes) :=
  match takePieces? [] bs with
  | none => none
  | some (pieces, rest) => some ((pieceBytes? pieces.reverse).bind Utf8.decode?, rest)

/-- The rest after a word. -/
def takeWord? (word : String) (bs : Bytes) : Option Bytes :=
  let w := Bytes.ascii word
  if Bytes.startsWith bs w then some (bs.drop w.length) else none

/-- What is being read, around the current place. -/
inductive Frame where
  | array (before : List Json)
  | object (before : List (Option String × Json)) (key : Option String)

/-- What comes next. -/
inductive Want where
  | value
  /-- A value, or the end of an array that has none. -/
  | valueOrEnd
  /-- A key, or the end of an object that has none. -/
  | keyOrEnd
  | key
  /-- What follows a value. -/
  | after (value : Json)

/-- The object of members whose keys may not be text. -/
def ofMembers (members : List (Option String × Json)) : Json :=
  match members.mapM fun (key, value) => key.map (·, value) with
  | some members => .object members
  | none => .sealed

/-- Reads one document. Each step takes at least one byte or completes a
value that a step before has begun, so twice the length bounds them. -/
def run (fuel : Nat) (want : Want) (frames : List Frame) (bs : Bytes) : Option (Json × Bytes) :=
  match fuel with
  | 0 => none
  | fuel + 1 =>
    match want, skipBlanks bs with
    | .after value, rest =>
      match frames with
      | [] => some (value, rest)
      | .array before :: frames =>
        match rest with
        | 0x2C :: rest => run fuel .value (.array (value :: before) :: frames) rest
        | 0x5D :: rest => run fuel (.after (.array (value :: before).reverse)) frames rest
        | _ => none
      | .object before key :: frames =>
        match rest with
        | 0x2C :: rest => run fuel .key (.object ((key, value) :: before) none :: frames) rest
        | 0x7D :: rest =>
          run fuel (.after (ofMembers ((key, value) :: before).reverse)) frames rest
        | _ => none
    | .keyOrEnd, 0x7D :: rest =>
      match frames with
      | .object before _ :: frames => run fuel (.after (ofMembers before.reverse)) frames rest
      | _ => none
    | .keyOrEnd, rest => run fuel .key frames rest
    | .key, 0x22 :: rest =>
      match takeString? rest, frames with
      | some (key, rest), .object before _ :: frames =>
        match skipBlanks rest with
        | 0x3A :: rest => run fuel .value (.object before key :: frames) rest
        | _ => none
      | _, _ => none
    | .key, _ => none
    | .valueOrEnd, 0x5D :: rest =>
      match frames with
      | .array before :: frames => run fuel (.after (.array before.reverse)) frames rest
      | _ => none
    | .valueOrEnd, rest => run fuel .value frames rest
    | .value, b :: rest =>
      if b = 0x22 then
        match takeString? rest with
        | some (s, rest) => run fuel (.after (.string s)) frames rest
        | none => none
      else if b = 0x5B then run fuel .valueOrEnd (.array [] :: frames) rest
      else if b = 0x7B then run fuel .keyOrEnd (.object [] none :: frames) rest
      else if b = 0x6E then
        (takeWord? "null" (b :: rest)).bind fun rest => run fuel (.after .null) frames rest
      else if b = 0x74 then
        (takeWord? "true" (b :: rest)).bind fun rest => run fuel (.after (.bool true)) frames rest
      else if b = 0x66 then
        (takeWord? "false" (b :: rest)).bind fun rest => run fuel (.after (.bool false)) frames rest
      else
        match takeNumber? (b :: rest) with
        | some (n, rest) => run fuel (.after n) frames rest
        | none => none
    | .value, [] => none

/-- Reads a complete document. -/
def parse? (bs : Bytes) : Option Json :=
  match run (3 * bs.length + 3) .value [] bs with
  | some (value, rest) => if (skipBlanks rest).isEmpty then some value else none
  | none => none

/-! ## Looking into values -/

/-- The values of a key. -/
def valuesOf (members : List (String × Json)) (key : String) : List Json :=
  (members.filter fun m => m.1 == key).map Prod.snd

/-- A field of a record, which is an object by keys or an array by
places. A key must not repeat; `absent` stands in for one that is missing
in an object. -/
def field? (j : Json) (place size : Nat) (key : String) (absent : Option Json) : Option Json :=
  match j with
  | .object members =>
    match valuesOf members key with
    | [] => absent
    | [value] => some value
    | _ => none
  | .array items => if items.length = size then items[place]? else none
  | _ => none

/-- A count. -/
def count? : Json → Option Nat
  | .count n => some n
  | _ => none

/-- A truth value. -/
def bool? : Json → Option Bool
  | .bool b => some b
  | _ => none

/-- A text. -/
def string? : Json → Option String
  | .string s => s
  | _ => none

/-- Something that may be missing. -/
def optional? {α : Type} (f : Json → Option α) : Json → Option (Option α)
  | .null => some none
  | j => (f j).map some

/-- The name of one of several choices that say no more. -/
def choice? : Json → Option String
  | .string s => s
  | .object [(name, .null)] => some name
  | _ => none

end Json
end Intake
