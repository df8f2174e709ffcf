import Mathlib.Data.List.Basic
import Intake.Storage.Table
/-!
# What becomes of a table

What a table does with a row, told by its rows alone: it gains the row,
or keeps a row of the same key instead, or puts the row in that one's
place (`Table.Handles`). The index is there to find that row, and it
leads to it (`Table.Indexed`): that is kept from row to row, so a table
that was indexed has handled every row as it says (`Table.insert_handles`).

A table's course is what it did with rows one after another
(`Table.Course`). It has gained as many rows as there are outcomes that
say so (`Course.length_rows`).
-/

namespace Intake

namespace Outcome

/-- The row was stored beside the others. -/
def isGain : Outcome → Bool
  | inserted => true
  | _ => false

/-- The row was left out. -/
def isDiscard : Outcome → Bool
  | discarded _ => true
  | _ => false

/-- The row took a stored one's place. -/
def isReplacement : Outcome → Bool
  | replaced _ _ => true
  | _ => false

end Outcome

namespace Table

/-- The index leads from the text of a key to the row that has it, and to
no other place. -/
def Indexed (t : Table) : Prop :=
  ∀ key place, t.index.lookup key = some place ↔ (t.rows[place]?.bind t.keyOf?) = some key

/-- What a table makes of a row, and the table that it is then. -/
inductive Handles (keep : Keep) (t : Table) (row : Row) : Outcome → Table → Prop where
  /-- No row of its key was stored. -/
  | gained {t' : Table} (fresh : ∀ key, t.keyOf? row = some key →
        ∀ stored ∈ t.rows, t.keyOf? stored ≠ some key)
      (rows : t'.rows = t.rows ++ [row]) : Handles keep t row .inserted t'
  /-- A row of its key was, and stays. -/
  | kept {key : String} {stored : Row} (old : keep = .old) (mem : stored ∈ t.rows)
      (has : t.keyOf? stored = some key) (same : t.keyOf? row = some key) :
      Handles keep t row (.discarded key) t
  /-- A row of its key was, and gives its place up. -/
  | replaced {key : String} {front back : List Row} {stored : Row} {t' : Table} (new : keep = .new)
      (has : t.keyOf? stored = some key) (same : t.keyOf? row = some key)
      (before : t.rows = front ++ stored :: back) (rows : t'.rows = front ++ row :: back) :
      Handles keep t row (.replaced key stored) t'

/-- A table without rows is indexed. -/
theorem indexed_empty (keyColumn : Option Nat) : Indexed { keyColumn := keyColumn } := by
  intro key place
  simp

variable {t t' : Table} {keep : Keep} {row : Row}

/-- Where the index leads there is a row of the key. -/
theorem Indexed.split (h : t.Indexed) {key : String} {place : Nat}
    (hplace : t.index.lookup key = some place) :
    ∃ stored, t.rows[place]? = some stored ∧ t.keyOf? stored = some key :=
  Option.bind_eq_some_iff.mp ((h key place).mp hplace)

/-- What the index knows nothing of is not stored. -/
theorem Indexed.ne_of_lookup (h : t.Indexed) {key : String} (hnone : t.index.lookup key = none)
    {stored : Row} (hmem : stored ∈ t.rows) : t.keyOf? stored ≠ some key := by
  intro hkey
  obtain ⟨place, hplace⟩ := List.mem_iff_getElem?.mp hmem
  have hlookup := (h key place).mpr (by rw [hplace]; exact hkey)
  cases hnone.symm.trans hlookup

/-- The rows of a table with one more behind them. -/
theorem getElem?_concat (rows : List Row) (row : Row) (place : Nat) :
    (rows ++ [row])[place]? = if place = rows.length then some row else rows[place]? := by
  rcases Nat.lt_trichotomy place rows.length with hlt | rfl | hgt
  · rw [List.getElem?_append_left hlt, if_neg (Nat.ne_of_lt hlt)]
  · simp
  · rw [if_neg (Nat.ne_of_gt hgt), List.getElem?_eq_none (Nat.le_of_lt hgt),
      List.getElem?_eq_none (by rw [List.length_append]; exact hgt)]

/-- A row without a key can be added beside the index. -/
theorem Indexed.concat_keyless (h : t.Indexed) (hkey : t.keyOf? row = none) :
    Indexed { t with rows := t.rows ++ [row] } := by
  intro key place
  show t.index.lookup key = some place ↔ ((t.rows ++ [row])[place]?.bind t.keyOf?) = some key
  rw [h key place, getElem?_concat]
  split
  · next hplace => simp [hplace, hkey]
  · rfl

/-- A row with a new key goes into the index. -/
theorem Indexed.concat_fresh {key : String} (h : t.Indexed) (hkey : t.keyOf? row = some key)
    (hfresh : t.index.lookup key = none) :
    Indexed { t with rows := t.rows ++ [row], index := (key, t.rows.length) :: t.index } := by
  intro other place
  show ((key, t.rows.length) :: t.index).lookup other = some place
    ↔ ((t.rows ++ [row])[place]?.bind t.keyOf?) = some other
  rw [List.lookup_cons, getElem?_concat]
  by_cases hother : other = key
  · subst hother
    have hnone := hfresh ▸ h other place
    rw [beq_self_eq_true]
    dsimp only
    split
    · next hplace => simp [hplace, hkey]
    · next hplace => simpa [Ne.symm hplace] using hnone
  · rw [beq_eq_false_iff_ne.mpr hother]
    dsimp only
    rw [h other place]
    split
    · next hplace => simp [hplace, hkey, Ne.symm hother]
    · rfl

/-- A row can take the place of one with the same key. -/
theorem Indexed.set {stored : Row} {place : Nat} (h : t.Indexed)
    (hstored : t.rows[place]? = some stored) (hsame : t.keyOf? row = t.keyOf? stored) :
    Indexed { t with rows := t.rows.set place row } := by
  intro other place'
  show t.index.lookup other = some place' ↔ ((t.rows.set place row)[place']?.bind t.keyOf?)
    = some other
  obtain ⟨hlt, -⟩ := List.getElem?_eq_some_iff.mp hstored
  rw [h other place', List.getElem?_set, if_pos hlt]
  split
  · next hplace => rw [← hplace, hstored, Option.bind_some, Option.bind_some, hsame]
  · rfl

/-- **A table handles a row by its key, and stays indexed.** -/
theorem insert_handles (h : t.Indexed) (row : Row) (keep : Keep) :
    (t.insert row keep).2.Indexed ∧
      Handles keep t row (t.insert row keep).1 (t.insert row keep).2 := by
  unfold insert
  cases hkey : t.keyOf? row with
  | none =>
    refine ⟨h.concat_keyless hkey, .gained (fun key hsame => ?_) rfl⟩
    cases hkey.symm.trans hsame
  | some key =>
    dsimp only
    cases hlookup : t.index.lookup key with
    | none =>
      refine ⟨h.concat_fresh hkey hlookup, .gained (fun _ hsame stored hmem => ?_) rfl⟩
      obtain rfl := Option.some.inj (hkey.symm.trans hsame)
      exact h.ne_of_lookup hlookup hmem
    | some place =>
      obtain ⟨stored, hstored, hhas⟩ := h.split hlookup
      cases keep with
      | old => exact ⟨h, .kept rfl (List.mem_of_getElem? hstored) hhas hkey⟩
      | new =>
        obtain ⟨hlt, hget⟩ := List.getElem?_eq_some_iff.mp hstored
        refine ⟨h.set hstored (hkey.trans hhas.symm), ?_⟩
        dsimp only
        rw [List.getD_eq_getElem?_getD, hstored, Option.getD_some]
        refine .replaced rfl hhas hkey
          (?_ : t.rows = t.rows.take place ++ stored :: t.rows.drop (place + 1)) ?_
        · rw [← hget, List.getElem_cons_drop, List.take_append_drop]
        · exact List.set_eq_take_append_cons_drop.trans (if_pos hlt)

/-! ## Rows one after another -/

/-- What a table makes of some rows, in their order. -/
inductive Course (keep : Keep) : Table → List (Row × Outcome) → Table → Prop where
  | nil (t : Table) : Course keep t [] t
  | cons {t mid t' : Table} {row : Row} {outcome : Outcome} {past : List (Row × Outcome)}
      (first : Handles keep t row outcome mid) (later : Course keep mid past t') :
      Course keep t ((row, outcome) :: past) t'

theorem Course.append {past past' : List (Row × Outcome)} {t'' : Table}
    (h : Course keep t past t') (h' : Course keep t' past' t'') :
    Course keep t (past ++ past') t'' := by
  induction h with
  | nil => exact h'
  | cons first _ ih => exact .cons first (ih h')

/-- **A table has gained the rows that it says it has gained.** -/
theorem Course.length_rows {past : List (Row × Outcome)} (h : Course keep t past t') :
    t'.rows.length = t.rows.length + (past.map Prod.snd).countP Outcome.isGain := by
  induction h with
  | nil => rfl
  | cons first _ ih =>
    rw [ih, List.map_cons, List.countP_cons]
    cases first with
    | gained _ rows =>
      rw [rows, List.length_append, List.length_singleton]
      simp only [Outcome.isGain, if_true]
      omega
    | kept => rfl
    | replaced _ _ _ before rows => simp [before, rows, Outcome.isGain]

/-- A table that keeps new rows leaves none out. -/
theorem Course.countP_isDiscard {past : List (Row × Outcome)} (h : Course .new t past t') :
    (past.map Prod.snd).countP Outcome.isDiscard = 0 := by
  generalize hkeep : Keep.new = keep at h
  induction h with
  | nil => rfl
  | cons first _ ih =>
    rw [List.map_cons, List.countP_cons, ih]
    cases first with
    | kept old => cases hkeep.trans old
    | _ => rfl

end Table
end Intake
