import Intake.Table.Row
/-!
# Tables in memory

A table holds rows in the order in which they came. It may have a key
column, and then an index that leads from each key's text to its row. A
row whose key is stored already is left out or takes the stored row's
place, as the caller wants; NULL is no key.
-/

namespace Intake

/-- Which of two rows of one key stays. -/
inductive Keep where
  | new
  | old
  deriving DecidableEq, Repr

/-- What became of a row. -/
inductive Outcome where
  | inserted
  /-- Its key was stored, and it was left out. -/
  | discarded (key : String)
  /-- Its key was stored, and it took the place of `old`. -/
  | replaced (key : String) (old : Row)
  deriving DecidableEq, Repr

/-- A table in memory. -/
structure Table where
  rows : List Row := []
  keyColumn : Option Nat := none
  /-- The place of each key's row. -/
  index : List (String × Nat) := []
  deriving DecidableEq, Repr

namespace Table

/-- The text of a row's key, if it has one. -/
def keyOf? (t : Table) (row : Row) : Option String :=
  match t.keyColumn with
  | none => none
  | some i =>
    let v := row.values.getD i .null
    if v.isNull then none else some v.display

/-- Stores a row. -/
def insert (t : Table) (row : Row) (keep : Keep) : Outcome × Table :=
  match t.keyOf? row with
  | none => (.inserted, { t with rows := t.rows ++ [row] })
  | some key =>
    match t.index.lookup key with
    | none =>
      (.inserted,
        { t with rows := t.rows ++ [row], index := (key, t.rows.length) :: t.index })
    | some place =>
      match keep with
      | .old => (.discarded key, t)
      | .new =>
        (.replaced key (t.rows.getD place (Row.blank 0)), { t with rows := t.rows.set place row })

/-- Removes every row. -/
def truncate (t : Table) : Table := { t with rows := [], index := [] }

/-- The number of rows. -/
def size (t : Table) : Nat := t.rows.length

end Table
end Intake
