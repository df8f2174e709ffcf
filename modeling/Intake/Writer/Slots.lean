import Intake.Table.Row
/-!
# Slots for rows that wait

A batch is collected in slots that stay when it has been stored: the next
batch overwrites them and adds to them only when it gets beyond the
longest one so far. So behind the rows that wait there may be others that
have been stored long ago, and a count says where the former end.

What the slots stand for is a list of rows with their records
(`Slots.entries`), and each operation is said of that list. Nothing else
about the slots matters to a writer.
-/

namespace Intake

/-- Rows and their records, slot by slot. -/
structure Slots where
  rows : List Row
  raws : List Bytes
  /-- The number of slots whose rows wait. What the others hold has been
  stored. -/
  used : Nat
  paired : raws.length = rows.length
  used_le : used ≤ rows.length

namespace Slots

/-- Stores something at a place: over what is there, or as a new last
element. -/
def putAt {α : Type} (xs : List α) (n : Nat) (x : α) : List α :=
  if n < xs.length then xs.set n x else xs ++ [x]

section PutAt

variable {α : Type} {xs : List α} {n : Nat}

@[simp] theorem length_putAt (h : n ≤ xs.length) (x : α) :
    (putAt xs n x).length = max xs.length (n + 1) := by
  unfold putAt
  split
  · rw [List.length_set]
    omega
  · rw [List.length_append, List.length_singleton]
    omega

/-- Up to the place nothing changes, and behind it comes what was stored. -/
theorem take_putAt (h : n ≤ xs.length) (x : α) : (putAt xs n x).take (n + 1) = xs.take n ++ [x] := by
  unfold putAt
  split
  · next hlt =>
    rw [List.take_add_one, List.take_set_of_le (Nat.le_refl n), List.getElem?_set_self hlt]
    rfl
  · next hge =>
    obtain rfl : n = xs.length := Nat.le_antisymm h (Nat.not_lt.mp hge)
    rw [List.take_length]
    exact List.take_of_length_le (Nat.le_of_eq List.length_append)

end PutAt

/-- No slot yet. -/
def empty : Slots := ⟨[], [], 0, rfl, Nat.le_refl 0⟩

/-- Fills the next slot, one left from an earlier batch or a new one. -/
def put (b : Slots) (row : Row) (raw : Bytes) : Slots where
  rows := putAt b.rows b.used row
  raws := putAt b.raws b.used raw
  used := b.used + 1
  paired := by
    rw [length_putAt b.used_le, length_putAt (b.paired.symm ▸ b.used_le), b.paired]
  used_le := by
    rw [length_putAt b.used_le]
    exact Nat.le_max_right _ _

/-- No row waits any more; the slots stay. -/
def clear (b : Slots) : Slots := { b with used := 0, used_le := Nat.zero_le _ }

/-- The rows that wait. -/
def batch (b : Slots) : List Row := b.rows.take b.used

/-- What the slots stand for: the rows that wait, with their records. -/
def entries (b : Slots) : List (Row × Bytes) := b.batch.zip (b.raws.take b.used)

variable (b : Slots)

theorem length_batch : b.batch.length = b.used := by
  rw [batch, List.length_take, Nat.min_eq_left b.used_le]

theorem length_records : (b.raws.take b.used).length = b.used := by
  rw [List.length_take, Nat.min_eq_left (b.paired.symm ▸ b.used_le)]

@[simp] theorem length_entries : b.entries.length = b.used := by
  rw [entries, List.length_zip, length_batch, length_records, Nat.min_self]

theorem map_fst_entries : b.entries.map Prod.fst = b.batch :=
  List.map_fst_zip (Nat.le_of_eq (b.length_batch.trans b.length_records.symm))

theorem map_snd_entries : b.entries.map Prod.snd = b.raws.take b.used :=
  List.map_snd_zip (Nat.le_of_eq (b.length_records.trans b.length_batch.symm))

/-- **Whichever slot a row is put into, it waits behind the others.** -/
@[simp] theorem entries_put (row : Row) (raw : Bytes) :
    (b.put row raw).entries = b.entries ++ [(row, raw)] := by
  have hrows : (b.put row raw).batch = b.batch ++ [row] := take_putAt b.used_le row
  have hraws : (putAt b.raws b.used raw).take (b.used + 1) = b.raws.take b.used ++ [raw] :=
    take_putAt (b.paired.symm ▸ b.used_le) raw
  show (b.put row raw).batch.zip ((putAt b.raws b.used raw).take (b.used + 1)) = _
  rw [hrows, hraws, List.zip_append (b.length_batch.trans b.length_records.symm)]
  rfl

/-- What is paired with all records there are, being no more than the rows
that wait, is paired with the records of these. -/
theorem zip_raws {α : Type} {xs : List α} (h : xs.length ≤ b.used) :
    xs.zip b.raws = xs.zip (b.entries.map Prod.snd) := by
  have hlength : (xs.zip b.raws).length ≤ b.used := by
    rw [List.length_zip]
    exact Nat.le_trans (Nat.min_le_left _ _) h
  calc xs.zip b.raws
    _ = (xs.zip b.raws).take b.used := (List.take_of_length_le hlength).symm
    _ = (xs.take b.used).zip (b.raws.take b.used) := List.take_zipWith
    _ = xs.zip (b.entries.map Prod.snd) := by rw [List.take_of_length_le h, map_snd_entries]

end Slots
end Intake
