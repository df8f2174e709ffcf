import Intake.Site.Directory
import Intake.Table.Row
/-!
# Files of rows

Rows are added to a file as comma-separated records. What is written
waits until enough has come together or the file is flushed. A file has
no key, so no row of it is a duplicate.
-/

namespace Intake

/-- A file that rows are added to. -/
structure CsvFile where
  /-- The file's name below the root. -/
  name : String
  sheet : Csv.Sheet := {}
  deriving Repr

namespace CsvFile

/-- How many bytes may wait. -/
def capacity : Nat := 8192

/-- Opens a file to add to it, making it where there is none. -/
def openAt (path : String) (d : Directory) : Except StorageError CsvFile × Directory :=
  match d.openToAppend path with
  | (.error e, d) => (.error (.io e), d)
  | (.ok name, d) => (.ok { name := name }, d)

/-- Writes what waits. -/
def flush (f : CsvFile) (d : Directory) : CsvFile × Directory :=
  match f.sheet.drain with
  | (bs, sheet) => ({ f with sheet := sheet }, d.append f.name bs)

/-- Writes as much of what waits as makes room for the rest. -/
def relieve (f : CsvFile) (d : Directory) : CsvFile × Directory :=
  let bs := f.sheet.output
  let size := if bs.length ≤ capacity then 0 else (bs.length - 1) / capacity * capacity
  if size = 0 then (f, d)
  else
    ({ f with sheet := { f.sheet with output := bs.drop size } }, d.append f.name (bs.take size))

/-- Adds one row. A row of another width than the first is refused when
its fields are written already; they stay. -/
def insert (f : CsvFile) (row : Row) (d : Directory) :
    Except StorageError Unit × CsvFile × Directory :=
  match f.sheet.record (row.values.map Value.bytes) with
  | (outcome, sheet) =>
    match { f with sheet := sheet }.relieve d with
    | (f, d) =>
      match outcome with
      | .ok () => (.ok (), f, d)
      | .error m => (.error (.csv m.message), f, d)

/-- Empties the file. -/
def truncate (f : CsvFile) (d : Directory) : CsvFile × Directory :=
  match f.flush d with
  | (f, d) => (f, d.put f.name [])

end CsvFile
end Intake
