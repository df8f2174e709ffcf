import Mathlib.Data.List.Induction
import Intake.Proofs.Storage.Table
/-!
# What a table holds, told by what arrived

What a table holds after any calls is said here without the table: by the
rows that arrived since everything was last removed, each with which row
of its key was to stay.

There is one row for each key that arrived, and one for each row that
arrived without a key, in the order in which they first did
(`newcomers`). The row that stands for a key is the last that was to
replace what it met, or the first of all if none was (`standing`).
Together that is `settled`. A table holds it after every course of
calls, its index leads to each key's row and to nothing else, and what
it says of the next row is true (`Table.calls_holds`).

One thing that could be expected is not so. A row that takes the place of
one equal to it leaves the table as it was, and is told as a replacement
all the same (`Table.replaced_unchanged`).
-/

namespace Intake

/-! ## What is to be held -/

section Settled

variable (key : Row → Option String)

/-- The rows that were the first of their key, and all rows without one,
in their order. -/
def newcomers : List Row → List Row
  | [] => []
  | row :: rows =>
    row :: (newcomers rows).filter fun later => key later = none ∨ key later ≠ key row

/-- Which of the rows of one key stands for it: the last that was to
replace what it met, or the first. -/
def foremost (own : List (Row × Keep)) : Option Row :=
  ((own.filter fun arrival => arrival.2 = .new).getLast?.or own.head?).map Prod.fst

/-- The row that stands for a key. -/
def standing (k : String) (past : List (Row × Keep)) : Option Row :=
  foremost (past.filter fun arrival => key arrival.1 = some k)

/-- No two of the rows share a key. -/
def Distinct (rows : List Row) : Prop :=
  rows.Pairwise fun a b => ∀ k, key a = some k → key b ≠ some k

/-- The row that is held in the place of a newcomer: the one that stands
for its key, or itself if it has none. -/
def successor (past : List (Row × Keep)) (row : Row) : Row :=
  ((key row).bind fun k => standing key k past).getD row

/-- What a table holds once some rows have arrived, each with the row of
its key that was to stay. -/
def settled (past : List (Row × Keep)) : List Row :=
  (newcomers key (past.map Prod.fst)).map (successor key past)

variable {key} {row : Row} {keep : Keep} {k : String} {past : List (Row × Keep)}

theorem newcomers_sublist (rows : List Row) : (newcomers key rows).Sublist rows := by
  induction rows with
  | nil => exact .slnil
  | cons row rows ih => exact (List.filter_sublist.trans ih).cons_cons row

/-- Every key that arrived has a first row. -/
theorem exists_newcomer {rows : List Row} (hmem : row ∈ rows) (hkey : key row = some k) :
    ∃ first ∈ newcomers key rows, key first = some k := by
  induction rows with
  | nil => cases hmem
  | cons head rows ih =>
    by_cases hhead : key head = some k
    · exact ⟨head, List.mem_cons_self, hhead⟩
    · rcases List.mem_cons.mp hmem with rfl | hmem
      · exact absurd hkey hhead
      · obtain ⟨first, hfirst, hk⟩ := ih hmem
        refine ⟨first, List.mem_cons_of_mem _ (List.mem_filter.mpr ⟨hfirst, ?_⟩), hk⟩
        exact decide_eq_true (.inr (hk ▸ Ne.symm hhead))

variable (key) in
/-- No two first rows share a key. -/
theorem distinct_newcomers (rows : List Row) : Distinct key (newcomers key rows) := by
  induction rows with
  | nil => exact .nil
  | cons row rows ih =>
    refine .cons (fun later hlater k hrow => ?_) (ih.sublist List.filter_sublist)
    rcases of_decide_eq_true (List.mem_filter.mp hlater).2 with hnone | hne
    · rw [hnone]
      exact Option.some_ne_none k ∘ Eq.symm
    · exact hrow ▸ hne

/-- A row without a key, or the first of its key, is a newcomer. -/
theorem newcomers_concat_fresh {rows : List Row}
    (hfresh : ∀ k, key row = some k → ∀ earlier ∈ rows, key earlier ≠ some k) :
    newcomers key (rows ++ [row]) = newcomers key rows ++ [row] := by
  induction rows with
  | nil => rfl
  | cons head rows ih =>
    have hkeep : key row = none ∨ key row ≠ key head := by
      cases hkey : key row with
      | none => exact .inl rfl
      | some k => exact .inr (Ne.symm (hfresh k hkey head List.mem_cons_self))
    have hrest := ih fun k hk earlier hmem => hfresh k hk earlier (List.mem_cons_of_mem _ hmem)
    rw [List.cons_append, newcomers, hrest, List.filter_append,
      List.filter_cons_of_pos (by simpa using hkeep)]
    rfl

/-- A row whose key has arrived is not. -/
theorem newcomers_concat_met {rows : List Row} (hkey : key row = some k)
    (hmet : ∃ earlier ∈ rows, key earlier = some k) :
    newcomers key (rows ++ [row]) = newcomers key rows := by
  induction rows with
  | nil => simp at hmet
  | cons head rows ih =>
    rw [List.cons_append, newcomers, newcomers]
    by_cases hrest : ∃ earlier ∈ rows, key earlier = some k
    · rw [ih hrest]
    · -- Nothing behind the head has the key, so the head has it and keeps the row out.
      have hhead : key head = some k := by
        obtain ⟨earlier, hmem, hk⟩ := hmet
        rcases List.mem_cons.mp hmem with rfl | hmem
        · exact hk
        · exact absurd ⟨earlier, hmem, hk⟩ hrest
      have hfresh : ∀ k', key row = some k' → ∀ earlier ∈ rows, key earlier ≠ some k' := by
        intro k' hk' earlier hmem hk
        exact hrest ⟨earlier, hmem, hk.trans (hk'.symm.trans hkey)⟩
      have hdrop : ¬ (key row = none ∨ key row ≠ key head) := by simp [hkey, hhead]
      rw [newcomers_concat_fresh hfresh, List.filter_append,
        List.filter_cons_of_neg (by simpa using hdrop), List.filter_nil, List.append_nil]

theorem foremost_concat_new (own : List (Row × Keep)) (row : Row) :
    foremost (own ++ [(row, .new)]) = some row := by
  simp [foremost, List.filter_append]

theorem foremost_concat_old {own : List (Row × Keep)} (hown : own ≠ []) (row : Row) :
    foremost (own ++ [(row, .old)]) = foremost own := by
  obtain ⟨first, own, rfl⟩ := List.exists_cons_of_ne_nil hown
  simp [foremost, List.filter_append, List.filter_cons]

theorem exists_foremost {own : List (Row × Keep)} (hown : own ≠ []) :
    ∃ arrival ∈ own, foremost own = some arrival.1 := by
  obtain ⟨first, own, rfl⟩ := List.exists_cons_of_ne_nil hown
  unfold foremost
  cases hlast : ((first :: own).filter fun arrival => arrival.2 = .new).getLast? with
  | none => exact ⟨first, List.mem_cons_self, rfl⟩
  | some arrival => exact ⟨arrival, (List.mem_filter.mp (List.mem_of_getLast? hlast)).1, rfl⟩

/-- The rows of a key among what arrived, one more row of it being last. -/
theorem own_concat (hkey : key row = some k) :
    ((past ++ [(row, keep)]).filter fun arrival => key arrival.1 = some k)
      = (past.filter fun arrival => key arrival.1 = some k) ++ [(row, keep)] := by
  rw [List.filter_append, List.filter_cons_of_pos (by simpa using hkey), List.filter_nil]

/-- A row of another key changes nothing about who stands for this one. -/
theorem standing_concat_other (hkey : key row ≠ some k) :
    standing key k (past ++ [(row, keep)]) = standing key k past := by
  unfold standing
  rw [List.filter_append, List.filter_cons_of_neg (by simpa using hkey), List.filter_nil,
    List.append_nil]

theorem own_ne_nil (hmet : ∃ earlier ∈ past, key earlier.1 = some k) :
    (past.filter fun arrival => key arrival.1 = some k) ≠ [] := by
  obtain ⟨earlier, hmem, hkey⟩ := hmet
  exact List.ne_nil_of_mem (List.mem_filter.mpr ⟨hmem, decide_eq_true hkey⟩)

variable (key) in
/-- A key that has arrived has a row that stands for it, and it is a row of this key. -/
theorem exists_standing (hmet : ∃ earlier ∈ past, key earlier.1 = some k) :
    ∃ row, standing key k past = some row ∧ key row = some k := by
  obtain ⟨arrival, hmem, hforemost⟩ := exists_foremost (own_ne_nil hmet)
  exact ⟨arrival.1, hforemost, of_decide_eq_true (List.mem_filter.mp hmem).2⟩

theorem successor_keyless (hkey : key row = none) : successor key past row = row := by
  rw [successor, hkey, Option.bind_none, Option.getD_none]

theorem successor_keyed (hkey : key row = some k) :
    successor key past row = (standing key k past).getD row := by
  rw [successor, hkey, Option.bind_some]

/-- A newcomer is one of the rows that arrived. -/
theorem exists_arrival (hmem : row ∈ newcomers key (past.map Prod.fst)) :
    ∃ arrival ∈ past, arrival.1 = row :=
  List.mem_map.mp ((newcomers_sublist _).subset hmem)

/-- What is held in a newcomer's place has its key. -/
theorem key_successor (hmem : row ∈ newcomers key (past.map Prod.fst)) :
    key (successor key past row) = key row := by
  cases hkey : key row with
  | none => rw [successor_keyless hkey, hkey]
  | some k =>
    obtain ⟨arrival, harrival, rfl⟩ := exists_arrival hmem
    obtain ⟨stands, hstands, hk⟩ := exists_standing key ⟨arrival, harrival, hkey⟩
    rw [successor_keyed hkey, hstands, Option.getD_some, hk]

/-- A row changes nothing about the newcomers of other keys. -/
theorem successor_concat_other {first : Row}
    (hother : ∀ k, key row = some k → key first ≠ some k) :
    successor key (past ++ [(row, keep)]) first = successor key past first := by
  cases hkey : key first with
  | none => rw [successor_keyless hkey, successor_keyless hkey]
  | some k =>
    rw [successor_keyed hkey, successor_keyed hkey,
      standing_concat_other fun hrow => hother k hrow hkey]

/-- What is held has the keys of the newcomers, place by place. -/
theorem map_key_settled (past : List (Row × Keep)) :
    (settled key past).map key = (newcomers key (past.map Prod.fst)).map key := by
  rw [settled, List.map_map]
  exact List.map_congr_left fun first hfirst => key_successor hfirst

/-- A key is held if and only if it has arrived. -/
theorem exists_settled_iff :
    (∃ stored ∈ settled key past, key stored = some k)
      ↔ ∃ earlier ∈ past, key earlier.1 = some k := by
  rw [← List.mem_map, map_key_settled, List.mem_map]
  constructor
  · rintro ⟨first, hfirst, hkey⟩
    obtain ⟨arrival, harrival, rfl⟩ := exists_arrival hfirst
    exact ⟨arrival, harrival, hkey⟩
  · rintro ⟨earlier, hmem, hkey⟩
    exact exists_newcomer (List.mem_map_of_mem hmem) hkey

variable (key) in
/-- No two rows that are held share a key. -/
theorem distinct_settled (past : List (Row × Keep)) : Distinct key (settled key past) := by
  have h := distinct_newcomers key (past.map Prod.fst)
  unfold Distinct at h ⊢
  rw [← List.pairwise_map (f := key) (R := fun a b => ∀ k, a = some k → b ≠ some k)] at h ⊢
  rwa [map_key_settled]

/-- A row without a key, or the first of its key, is held behind the others. -/
theorem settled_concat_fresh
    (hfresh : ∀ k, key row = some k → ∀ earlier ∈ past, key earlier.1 ≠ some k) :
    settled key (past ++ [(row, keep)]) = settled key past ++ [row] := by
  have hnew : newcomers key ((past ++ [(row, keep)]).map Prod.fst)
      = newcomers key (past.map Prod.fst) ++ [row] := by
    rw [List.map_append]
    refine newcomers_concat_fresh fun k hk earlier hmem => ?_
    obtain ⟨arrival, harrival, rfl⟩ := List.mem_map.mp hmem
    exact hfresh k hk arrival harrival
  have hothers : ∀ first ∈ newcomers key (past.map Prod.fst),
      successor key (past ++ [(row, keep)]) first = successor key past first := by
    intro first hfirst
    obtain ⟨arrival, harrival, rfl⟩ := exists_arrival hfirst
    exact successor_concat_other fun k hrow => hfresh k hrow arrival harrival
  have hself : successor key (past ++ [(row, keep)]) row = row := by
    cases hkey : key row with
    | none => exact successor_keyless hkey
    | some k =>
      have hnone : (past.filter fun arrival => key arrival.1 = some k) = [] :=
        List.filter_eq_nil_iff.mpr fun earlier hmem => by simpa using hfresh k hkey earlier hmem
      rw [successor_keyed hkey, standing, own_concat hkey, hnone]
      cases keep <;> rfl
  rw [settled, hnew, List.map_append, List.map_singleton, hself, List.map_congr_left hothers,
    settled]

/-- The newcomers are the same with one more row of a key that has arrived. -/
theorem newcomers_arrivals_met (hkey : key row = some k)
    (hmet : ∃ earlier ∈ past, key earlier.1 = some k) :
    newcomers key ((past ++ [(row, keep)]).map Prod.fst)
      = newcomers key (past.map Prod.fst) := by
  obtain ⟨earlier, hmem, hk⟩ := hmet
  rw [List.map_append]
  exact newcomers_concat_met hkey ⟨earlier.1, List.mem_map_of_mem hmem, hk⟩

/-- A row that is not to replace anything, its key having arrived, leaves what is held. -/
theorem settled_concat_old (hkey : key row = some k)
    (hmet : ∃ earlier ∈ past, key earlier.1 = some k) :
    settled key (past ++ [(row, .old)]) = settled key past := by
  rw [settled, newcomers_arrivals_met hkey hmet, settled]
  refine List.map_congr_left fun first _ => ?_
  by_cases hfirst : key first = some k
  · rw [successor_keyed hfirst, successor_keyed hfirst, standing, own_concat hkey,
      foremost_concat_old (own_ne_nil hmet), standing]
  · exact successor_concat_other fun k' hrow => Option.some.inj (hkey.symm.trans hrow) ▸ hfirst

/-- A row that is to replace what it meets takes the place of its key's row. -/
theorem settled_concat_new (hkey : key row = some k)
    (hmet : ∃ earlier ∈ past, key earlier.1 = some k) :
    settled key (past ++ [(row, .new)])
      = (settled key past).map fun stored => if key stored = some k then row else stored := by
  rw [settled, newcomers_arrivals_met hkey hmet, settled, List.map_map]
  refine List.map_congr_left fun first hmem => ?_
  rw [Function.comp_apply, key_successor hmem]
  split
  · next hfirst =>
    rw [successor_keyed hfirst, standing, own_concat hkey, foremost_concat_new, Option.getD_some]
  · next hfirst =>
    exact successor_concat_other fun k' hrow => Option.some.inj (hkey.symm.trans hrow) ▸ hfirst

/-- What is held for a key is the row that stands for it. -/
theorem standing_of_mem_settled {stored : Row} (hmem : stored ∈ settled key past)
    (hkey : key stored = some k) : standing key k past = some stored := by
  obtain ⟨first, hfirst, rfl⟩ := List.mem_map.mp hmem
  rw [key_successor hfirst] at hkey
  obtain ⟨arrival, harrival, rfl⟩ := exists_arrival hfirst
  obtain ⟨stands, hstands, -⟩ := exists_standing key ⟨arrival, harrival, hkey⟩
  rw [successor_keyed hkey, hstands, Option.getD_some]

/-- Rows of which no two share a key are all held, whichever was to stay. -/
theorem settled_of_distinct (keep : Keep) {rows : List Row} (h : Distinct key rows) :
    settled key (rows.map fun row => (row, keep)) = rows := by
  induction rows using List.reverseRecOn with
  | nil => rfl
  | append_singleton rows row ih =>
    obtain ⟨hrows, -, hlast⟩ := List.pairwise_append.mp h
    rw [List.map_append, List.map_singleton, settled_concat_fresh, ih hrows]
    intro k hk earlier hmem hkey
    obtain ⟨before, hbefore, rfl⟩ := List.mem_map.mp hmem
    exact hlast before hbefore row List.mem_cons_self k hkey hk

end Settled

/-! ## What is held -/

namespace Table

/-- Something that is done to a table. -/
inductive Call where
  /-- A row comes in, and `keep` says which row of its key is to stay. -/
  | insert (row : Row) (keep : Keep)
  /-- Every row is removed. -/
  | truncate
  deriving DecidableEq, Repr

/-- The table after a call. -/
def call (t : Table) : Call → Table
  | .insert row keep => (t.insert row keep).2
  | .truncate => t.truncate

/-- The table after some calls, in their order. -/
def calls (t : Table) (cs : List Call) : Table := cs.foldl call t

/-- The rows that have arrived once a call is over, given those before. -/
def Call.arrived (past : List (Row × Keep)) : Call → List (Row × Keep)
  | .insert row keep => past ++ [(row, keep)]
  | .truncate => []

/-- The rows that have arrived since every row was last removed. -/
def arrivals (cs : List Call) : List (Row × Keep) := cs.foldl Call.arrived []

/-- What a row's key is in a table with some key column. -/
def keyAt (column : Option Nat) : Row → Option String := keyOf? { keyColumn := column }

/-- What a table says about a row, against what became of it. -/
structure Truthful (key : Row → Option String) (t : Table) (row : Row) (keep : Keep)
    (outcome : Outcome) (t' : Table) : Prop where
  /-- Stored beside the others: the table has grown by this row. -/
  inserted : outcome = .inserted ↔ t'.rows = t.rows ++ [row]
  /-- Stored for another: that is the row that stood in the place. -/
  replaced : ∀ k old, outcome = .replaced k old → keep = .new ∧ key row = some k ∧
    ∃ place, t.rows[place]? = some old ∧ key old = some k ∧ t'.rows = t.rows.set place row
  /-- Left out: nothing has changed, and a row of its key stands. -/
  discarded : ∀ k, outcome = .discarded k →
    keep = .old ∧ key row = some k ∧ (∃ stored ∈ t.rows, key stored = some k) ∧ t' = t
  /-- Nothing changes unless a row is left out or put where its like was. -/
  unchanged : t' = t → (∃ k, outcome = .discarded k) ∨ ∃ k, outcome = .replaced k row

/-- What is true of a table with the given key column once some rows have
arrived. -/
structure Holds (column : Option Nat) (past : List (Row × Keep)) (t : Table) : Prop where
  keyColumn : t.keyColumn = column
  /-- The index leads from each stored key to its row's place, and nowhere else. -/
  index : ∀ k place, t.index.lookup k = some place
    ↔ ∃ stored, t.rows[place]? = some stored ∧ keyAt column stored = some k
  /-- No two rows share a key. -/
  distinct : Distinct (keyAt column) t.rows
  /-- One row stands for each newcomer, in their order. -/
  rows : t.rows = settled (keyAt column) past
  /-- What the table says of the next row is true. -/
  told : ∀ row keep,
    Truthful (keyAt column) t row keep (t.insert row keep).1 (t.insert row keep).2

variable {column : Option Nat} {past : List (Row × Keep)} {t t' : Table} {row : Row}
  {keep : Keep} {outcome : Outcome}

theorem keyOf?_eq (h : t.keyColumn = column) : t.keyOf? = keyAt column := by
  subst h
  rfl

/-- The key column stays what it is. -/
@[simp] theorem keyColumn_insert (t : Table) (row : Row) (keep : Keep) :
    (t.insert row keep).2.keyColumn = t.keyColumn := by
  unfold insert
  split
  · rfl
  · split
    · rfl
    · cases keep <;> rfl

/-- What a table makes of a row is true to what it says of it. -/
theorem Handles.truthful (h : Handles keep t row outcome t') :
    Truthful t.keyOf? t row keep outcome t' := by
  cases h with
  | gained fresh rows =>
    refine ⟨iff_of_true rfl rows, nofun, nofun, fun hsame => ?_⟩
    have hlen := congrArg List.length (hsame ▸ rows)
    simp at hlen
  | kept old mem has same =>
    exact ⟨⟨nofun, fun hrows => by simp at hrows⟩, nofun,
      fun k hk => by cases hk; exact ⟨old, same, ⟨_, mem, has⟩, rfl⟩, fun _ => .inl ⟨_, rfl⟩⟩
  | @replaced key front back stored _ new has same before rows =>
    refine ⟨⟨nofun, fun hrows => ?_⟩, fun k old hk => ?_, nofun, fun hsame => .inr ⟨key, ?_⟩⟩
    · have hlen := congrArg List.length (rows.symm.trans hrows)
      simp [before] at hlen
    · cases hk
      refine ⟨new, same, front.length, ?_, has, ?_⟩
      · rw [before, List.getElem?_append_right (Nat.le_refl _), Nat.sub_self,
          List.getElem?_cons_zero]
      · rw [rows, before, List.set_append_right _ _ (Nat.le_refl _), Nat.sub_self,
          List.set_cons_zero]
    · have hback := before.symm.trans (hsame ▸ rows)
      rw [(List.cons.inj (List.append_cancel_left hback)).1]

/-- Putting a row in the place of the only one of its key. -/
theorem map_replace {key : Row → Option String} {k : String} {front back : List Row}
    {stored : Row} (has : key stored = some k)
    (hpair : Distinct key (front ++ stored :: back)) (row : Row) :
    (front ++ stored :: back).map (fun r => if key r = some k then row else r)
      = front ++ row :: back := by
  obtain ⟨-, hback, hfront⟩ := List.pairwise_append.mp hpair
  have hfront' : ∀ r ∈ front, (if key r = some k then row else r) = r := fun r hr =>
    if_neg fun hk => hfront r hr stored List.mem_cons_self k hk has
  have hback' : ∀ r ∈ back, (if key r = some k then row else r) = r := fun r hr =>
    if_neg ((List.pairwise_cons.mp hback).1 r hr k has)
  rw [List.map_append, List.map_cons, if_pos has, List.map_congr_left hfront',
    List.map_congr_left hback', List.map_id', List.map_id']

/-- What the rows of a table come to with one more. -/
theorem Handles.settled (h : Handles keep t row outcome t')
    (hrows : t.rows = Intake.settled t.keyOf? past) :
    t'.rows = Intake.settled t.keyOf? (past ++ [(row, keep)]) := by
  cases h with
  | gained fresh rows =>
    rw [rows, hrows]
    refine (settled_concat_fresh fun k hk earlier hmem hkey => ?_).symm
    obtain ⟨stored, hstored, hsame⟩ := exists_settled_iff.mpr ⟨earlier, hmem, hkey⟩
    exact fresh k hk stored (hrows ▸ hstored) hsame
  | kept old mem has same =>
    subst old
    rw [hrows, settled_concat_old same (exists_settled_iff.mp ⟨_, hrows ▸ mem, has⟩)]
  | replaced new has same before rows =>
    subst new
    have hmem : _ ∈ t.rows := before ▸ List.mem_append_right _ List.mem_cons_self
    have hpair := distinct_settled t.keyOf? past
    rw [settled_concat_new same (exists_settled_iff.mp ⟨_, hrows ▸ hmem, has⟩), ← hrows, before,
      rows]
    rw [← hrows, before] at hpair
    exact (map_replace has hpair row).symm

/-- What a table and the rows that have arrived have to do with each
other: kept by every call. -/
structure Stands (column : Option Nat) (past : List (Row × Keep)) (t : Table) : Prop where
  keyColumn : t.keyColumn = column
  indexed : t.Indexed
  rows : t.rows = settled t.keyOf? past

theorem stands_empty (column : Option Nat) : Stands column [] { keyColumn := column } :=
  ⟨rfl, indexed_empty column, rfl⟩

/-- The rows of an indexed table have distinct keys. -/
theorem Indexed.distinct (h : t.Indexed) : Distinct t.keyOf? t.rows := by
  refine List.pairwise_iff_getElem.mpr fun i j hi hj hlt k hki hkj => ?_
  have hlookup : ∀ place (hplace : place < t.rows.length), t.keyOf? t.rows[place] = some k →
      t.index.lookup k = some place := fun place hplace hk =>
    (h k place).mpr (by rw [List.getElem?_eq_getElem hplace, Option.bind_some, hk])
  have hsame := (hlookup i hi hki).symm.trans (hlookup j hj hkj)
  exact Nat.ne_of_lt hlt (Option.some.inj hsame)

/-- An indexed table is as if its rows had just arrived. -/
theorem Indexed.stands (h : t.Indexed) (keep : Keep) :
    Stands t.keyColumn (t.rows.map fun row => (row, keep)) t :=
  ⟨rfl, h, (settled_of_distinct keep h.distinct).symm⟩

theorem Stands.call (h : Stands column past t) (c : Call) :
    Stands column (c.arrived past) (t.call c) := by
  cases c with
  | insert row keep =>
    obtain ⟨hindexed, hhandles⟩ := insert_handles h.indexed row keep
    have hcolumn : (t.insert row keep).2.keyColumn = column :=
      (keyColumn_insert t row keep).trans h.keyColumn
    refine ⟨hcolumn, hindexed, ?_⟩
    show (t.insert row keep).2.rows = settled (t.insert row keep).2.keyOf? (past ++ [(row, keep)])
    rw [keyOf?_eq hcolumn, ← keyOf?_eq h.keyColumn]
    exact hhandles.settled h.rows
  | truncate => exact ⟨h.keyColumn, indexed_empty t.keyColumn, rfl⟩

theorem Stands.calls (h : Stands column past t) (cs : List Call) :
    Stands column (cs.foldl Call.arrived past) (t.calls cs) := by
  induction cs generalizing past t with
  | nil => exact h
  | cons c cs ih => exact ih (h.call c)

theorem Stands.holds (h : Stands column past t) : Holds column past t := by
  have hkey := keyOf?_eq h.keyColumn
  have hrows : t.rows = settled (keyAt column) past := hkey ▸ h.rows
  refine ⟨h.keyColumn, fun k place => ?_, ?_, hrows, fun row keep => ?_⟩
  · rw [h.indexed k place, hkey, Option.bind_eq_some_iff]
  · rw [hrows]
    exact distinct_settled _ past
  · exact hkey ▸ (insert_handles h.indexed row keep).2.truthful

/-- **A table holds one row for every key that arrived, and knows where.**
After any calls, a table that was new holds what the rows that arrived
since it was last emptied come to, its index leads to each key's row and
to no other place, and what it says of the next row is true. -/
theorem calls_holds (column : Option Nat) (cs : List Call) :
    Holds column (arrivals cs) (calls { keyColumn := column } cs) :=
  ((stands_empty column).calls cs).holds

/-- A row that meets one equal to it takes its place, and the table is
what it was: that nothing has changed does not mean that a row was left
out. -/
theorem replaced_unchanged :
    ¬ ((∃ k, ((calls { keyColumn := some 0 } [.insert (.ofValues [.int32 1]) .new]).insert
          (.ofValues [.int32 1]) .new).1 = .discarded k)
        ↔ ((calls { keyColumn := some 0 } [.insert (.ofValues [.int32 1]) .new]).insert
          (.ofValues [.int32 1]) .new).2
          = calls { keyColumn := some 0 } [.insert (.ofValues [.int32 1]) .new]) := by
  intro h
  obtain ⟨k, hk⟩ := h.mpr (by decide +kernel)
  have hreplaced : ((calls { keyColumn := some 0 } [.insert (.ofValues [.int32 1]) .new]).insert
      (.ofValues [.int32 1]) .new).1 = .replaced "1" (.ofValues [.int32 1]) := by decide +kernel
  cases hk.symm.trans hreplaced

end Table
end Intake
