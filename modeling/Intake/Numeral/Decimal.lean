import Intake.Numeral.Shortest
import Intake.Text.Letters
/-!
# Reading a decimal as a binary number

An optional sign, then `inf`, `infinity` or `nan` in any case, or digits
with an optional point among or beside them and an optional exponent. The
result is the binary number nearest to the decimal, ties going to the
even pattern. Of an exponent only so many digits count as any number of
reasonable length needs (`exponentReach`).
-/

namespace Intake.Numeral

/-- The digits at the front, and what follows. -/
def takeDigits (cs : List Char) : List Nat × List Char :=
  ((cs.takeWhile (Text.digit? · |>.isSome)).filterMap Text.digit?,
    cs.dropWhile (Text.digit? · |>.isSome))

/-- The number that digits write. Of a long row of digits the two halves
are read apart, so that the cost stays near that of a multiplication. -/
def ofDigits (ds : List Nat) : Nat :=
  if ds.length < 32 then ds.foldl (fun n d => 10 * n + d) 0
  else
    let back := ds.drop (ds.length / 2)
    ofDigits (ds.take (ds.length / 2)) * Nat.pow 10 back.length + ofDigits back
  termination_by ds.length
  decreasing_by all_goals simp [List.length_take, List.length_drop]; omega

/-- An exponent grows by a digit only while it is less than this; the
digits after that are passed over. -/
def exponentReach : Nat := 65536

/-- The number that the digits of an exponent write. -/
def exponentOfDigits (ds : List Nat) : Nat :=
  ds.foldl (fun n d => if n < exponentReach then 10 * n + d else n) 0

/-- An exponent, which needs at least one digit; nothing may follow. -/
def exponent? : List Char → Option Int
  | [] => some 0
  | e :: cs =>
    if e = 'e' ∨ e = 'E' then
      let (negative, cs) :=
        match cs with
        | '-' :: cs => (true, cs)
        | '+' :: cs => (false, cs)
        | cs => (false, cs)
      match takeDigits cs with
      | ([], _) => none
      | (ds, []) =>
        let n := exponentOfDigits ds
        some (if negative then -n else n)
      | _ => none
    else none

/-- A decimal without a sign. -/
def decimal? (cs : List Char) : Option Decimal :=
  match takeDigits cs with
  | (whole, rest) =>
    let (places, rest) :=
      match rest with
      | '.' :: rest => takeDigits rest
      | rest => ([], rest)
    let ds := whole ++ places
    if ds.isEmpty then none
    else (exponent? rest).map fun e => ⟨ofDigits ds, e - places.length⟩

/-- The bit pattern nearest to a decimal. A decimal far beyond the
greatest number or far below the least one is not computed out: a
negative power of ten is less than that power of eight. -/
def Format.ofDecimal (f : Format) (d : Decimal) : Nat :=
  if d.digits = 0 then 0
  else if (f.scale : Int) < d.exponent then f.infinity
  else if d.digits.log2 + 1 + 3 * d.exponent < -(f.scale + 1 : Int) then 0
  else f.nearest (d.digits * Nat.pow 10 d.exponent.toNat) (Nat.pow 10 (-d.exponent).toNat)

/-- The 64-bit number that a text writes. -/
def Binary64.ofText? (cs : List Char) : Option Binary64 :=
  let (negative, cs) :=
    match cs with
    | '-' :: cs => (true, cs)
    | '+' :: cs => (false, cs)
    | cs => (false, cs)
  let word := String.ofList (cs.map Text.lowerChar)
  let magnitude? :=
    if word = "inf" ∨ word = "infinity" then some binary64.infinity
    else if word = "nan" then some binary64.notANumber
    else (decimal? cs).map binary64.ofDecimal
  magnitude?.map fun m => ofBits (if negative then m + binary64.signBit else m)

end Intake.Numeral
