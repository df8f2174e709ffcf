import Intake.Error
import Intake.Numeral.Integer
/-!
# Layouts of fixed-width records

A layout says where the fields of a record lie and how long a record is.
`Layout.ofFields` accepts a list of fields when they lie within the
record and no two of them overlap; it looks for overlaps only between
neighbours in the order of their places.
-/

namespace Intake

/-- How the bytes of a field are read. -/
inductive FieldKind where
  /-- Character data without its trailing blanks. -/
  | char
  /-- Character data as it is. -/
  | varchar
  /-- A little-endian number in two's complement. -/
  | integer
  /-- A little-endian number without sign. -/
  | unsigned
  /-- A little-endian floating-point number. -/
  | float
  deriving DecidableEq, Repr

/-- Whether a field of the kind is character data. -/
def FieldKind.isCharacter : FieldKind → Bool
  | .char | .varchar => true
  | .integer | .unsigned | .float => false

/-- One field of a fixed-width record. -/
structure FieldSpec where
  kind : FieldKind
  /-- Bytes of the record before the field. -/
  offset : Nat
  length : Nat
  /-- The content that stands for NULL. -/
  nullIf : Option Bytes := none
  deriving DecidableEq, Repr

/-- The place after the field's last byte. -/
def FieldSpec.stop (f : FieldSpec) : Nat := f.offset + f.length

/-- The fields of a record and its length. -/
structure Layout where
  fields : List FieldSpec
  /-- Bytes of one record. -/
  stride : Nat
  deriving DecidableEq, Repr

namespace Layout

/-- The greatest place that can be addressed. -/
def maxPlace : Nat := Numeral.maxCount

/-- The bytes a field occupies, and its number in the layout. -/
structure Extent where
  start : Nat
  stop : Nat
  column : Nat
  deriving DecidableEq, Repr

/-- The order of places: by start, then by end, then by number. -/
def Extent.before (a b : Extent) : Bool :=
  a.start < b.start
    || (a.start == b.start && (a.stop < b.stop || (a.stop == b.stop && a.column ≤ b.column)))

/-- The extents of fields, numbered from `column`. -/
def extents (column : Nat) : List FieldSpec → List Extent
  | [] => []
  | f :: fs => ⟨f.offset, f.stop, column⟩ :: extents (column + 1) fs

/-- The first neighbours that share a byte: the later and the earlier. -/
def firstOverlap? : List Extent → Option (Extent × Extent)
  | a :: b :: rest => if b.start < a.stop then some (b, a) else firstOverlap? (b :: rest)
  | _ => none

/-- The least number of bytes that holds all fields. -/
def reach (fields : List FieldSpec) : Nat := (fields.map FieldSpec.stop).foldl max 0

/-- The layout of some fields, with a record length or as long as the
fields need. -/
def ofFields (fields : List FieldSpec) (stride : Option Nat) : Except LoadError Layout :=
  if fields.isEmpty then .error (.config "fixed-width input requires at least one COL")
  else
    match fields.findIdx? fun f => maxPlace < f.stop with
    | some i => .error (.config ("COL " ++ toString (i + 1) ++ ": field range out of bounds"))
    | none =>
      let needed := reach fields
      let length := stride.getD needed
      if length = 0 then .error (.config "STRIDE must be positive")
      else if length < needed then
        .error (.config ("field layout needs " ++ toString needed ++ " bytes but STRIDE is "
          ++ toString length))
      else
        match firstOverlap? ((extents 1 fields).mergeSort Extent.before) with
        | some (later, earlier) =>
          .error (.config ("COL " ++ toString later.column ++ " overlaps COL "
            ++ toString earlier.column))
        | none => .ok ⟨fields, length⟩

end Layout
end Intake
