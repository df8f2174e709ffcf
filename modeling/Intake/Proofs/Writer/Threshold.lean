import Intake.Proofs.Record.Minimal
import Intake.Proofs.Run.Account
import Intake.Proofs.Storage.Arrival
import Intake.Proofs.Writer.Tally
/-!
# Duplicates and their limit

What a direct writer over a table makes of rows whose keys are stored
already, said by the rows alone: those that the table had at first and
those that were given since.

A row recurs if one of these before it has its key (`previous`), and each
row that recurs puts one entry into the file of duplicates (`captured`):
its own record where stored rows stay. Where new rows do, the entry is of
the row that it replaces, the last one before it with its key: a line with
the texts of that row's values, from which they are read back
(`line_legible`). As long as the limit is not passed every row is taken;
the first that is one too many fails, its own entry being in the file by
then. Where duplicates are errors the first row that recurs fails, and it
is as if it had not been given (`LocalWriter.overTable_threshold`).

The table's own course is nowhere followed. What it holds after some rows
is known from them (`Table.Stands`), and that decides what it makes of
the next.
-/

namespace Intake

/-! ## Rows that recur -/

section Captured

variable (key : Row → Option String) (keep : Keep)

/-- The row whose key a row has again: the last of those before it with
this key. -/
def previous (before : List Row) (row : Row) : Option Row :=
  (key row).bind fun k => (before.filter fun earlier => key earlier = some k).getLast?

/-- What goes into the file of duplicates for a row with its record. -/
def capture (before : List Row) (entry : Row × Bytes) : Option Bytes :=
  (previous key before entry.1).map fun replaced =>
    match keep with
    | .old => entry.2
    | .new => Csv.line (replaced.values.map fun v => Bytes.ofString v.display)

/-- What goes into the file for rows one after another, behind those of
`before`. -/
def captured (before : List Row) : List (Row × Bytes) → List Bytes
  | [] => []
  | entry :: rest =>
    (capture key keep before entry).toList ++ captured (before ++ [entry.1]) rest

variable {key keep} {before : List Row} {row : Row} {entry : Row × Bytes} {bytes : Bytes}

/-- A row does not recur if no row before it has its key. -/
theorem previous_eq_none_iff :
    previous key before row = none
      ↔ ∀ k, key row = some k → ∀ earlier ∈ before, key earlier ≠ some k := by
  cases hkey : key row <;> simp [previous, hkey]

theorem previous_eq_some {replaced : Row} (h : previous key before row = some replaced) :
    ∃ k, key row = some k ∧
      (before.filter fun earlier => key earlier = some k).getLast? = some replaced :=
  Option.bind_eq_some_iff.mp h

theorem captured_append (xs ys : List (Row × Bytes)) :
    captured key keep before (xs ++ ys)
      = captured key keep before xs ++ captured key keep (before ++ xs.map Prod.fst) ys := by
  induction xs generalizing before with
  | nil => rw [List.nil_append, captured, List.map_nil, List.append_nil, List.nil_append]
  | cons x xs ih =>
    rw [List.cons_append, captured, captured, ih, List.map_cons, List.append_assoc,
      List.append_assoc, List.singleton_append]

theorem captured_concat (xs : List (Row × Bytes)) (entry : Row × Bytes) :
    captured key keep before (xs ++ [entry])
      = captured key keep before xs
        ++ (capture key keep (before ++ xs.map Prod.fst) entry).toList := by
  rw [captured_append, captured, captured, List.append_nil]

/-- If more rows recur than some number, one of them is the first beyond it. -/
theorem exists_beyond {max : Nat} {entries : List (Row × Bytes)}
    (h : max < (captured key keep before entries).length) :
    ∃ front entry back bytes, entries = front ++ entry :: back ∧
      (captured key keep before front).length = max ∧
      capture key keep (before ++ front.map Prod.fst) entry = some bytes := by
  induction entries generalizing before max with
  | nil => cases h
  | cons entry entries ih =>
    cases hcapture : capture key keep before entry with
    | none =>
      rw [captured, hcapture] at h
      obtain ⟨front, entry', back, bytes, rfl, hlength, hbytes⟩ := ih h
      refine ⟨entry :: front, entry', back, bytes, rfl, ?_, ?_⟩
      · rw [captured, hcapture]
        exact hlength
      · rw [List.map_cons, List.append_cons]
        exact hbytes
    | some bytes =>
      -- The first row recurs: among the rest it is the one beyond a number less by one.
      cases max with
      | zero =>
        refine ⟨[], entry, entries, bytes, rfl, rfl, ?_⟩
        rw [List.map_nil, List.append_nil]
        exact hcapture
      | succ max =>
        rw [captured, hcapture] at h
        obtain ⟨front, entry', back, bytes', rfl, hlength, hbytes⟩ := ih (Nat.lt_of_succ_lt_succ h)
        refine ⟨entry :: front, entry', back, bytes', rfl, ?_, ?_⟩
        · rw [captured, hcapture]
          exact congrArg Nat.succ hlength
        · rw [List.map_cons, List.append_cons]
          exact hbytes

/-- Rows of which none recurs have distinct keys, with those before them. -/
theorem distinct_of_captured (h : Distinct key before) {entries : List (Row × Bytes)}
    (hnone : captured key keep before entries = []) :
    Distinct key (before ++ entries.map Prod.fst) := by
  induction entries generalizing before with
  | nil =>
    rw [List.map_nil, List.append_nil]
    exact h
  | cons entry entries ih =>
    obtain ⟨hentry, hrest⟩ := List.append_eq_nil_iff.mp hnone
    rw [List.map_cons, List.append_cons]
    refine ih (List.pairwise_append.mpr ⟨h, List.pairwise_singleton _ _, ?_⟩) hrest
    have hfresh : previous key before entry.1 = none :=
      Option.map_eq_none_iff.mp (Option.toList_eq_nil_iff.mp hentry)
    intro earlier hearlier row hrow k hk hrow'
    obtain rfl := List.mem_singleton.mp hrow
    exact previous_eq_none_iff.mp hfresh k hrow' earlier hearlier hk

end Captured

/-! ## What a table makes of the next row -/

namespace Table

variable {t : Table} {column : Option Nat} {keep : Keep} {rows : List Row} {row : Row}

/-- The rows that a table has been given, all with the same row to stay. -/
theorem Stands.exists_stored_iff (h : Stands column (rows.map fun row => (row, keep)) t)
    {k : String} : (∃ stored ∈ t.rows, t.keyOf? stored = some k)
      ↔ ∃ earlier ∈ rows, t.keyOf? earlier = some k := by
  rw [h.rows, exists_settled_iff]
  constructor
  · rintro ⟨_, harrival, hk⟩
    obtain ⟨earlier, hmem, rfl⟩ := List.mem_map.mp harrival
    exact ⟨earlier, hmem, hk⟩
  · rintro ⟨earlier, hmem, hk⟩
    exact ⟨(earlier, keep), List.mem_map_of_mem hmem, hk⟩

/-- A row that does not recur is stored beside the others. -/
theorem Stands.insert_fresh (h : Stands column (rows.map fun row => (row, keep)) t)
    (hfresh : previous t.keyOf? rows row = none) : (t.insert row keep).1 = .inserted := by
  have hhandles := (insert_handles h.indexed row keep).2
  have hnone : ∀ k stored, t.keyOf? row = some k → stored ∈ t.rows → t.keyOf? stored ≠ some k := by
    intro k stored hk hmem hsame
    obtain ⟨earlier, hearlier, hk'⟩ := h.exists_stored_iff.mp ⟨stored, hmem, hsame⟩
    exact previous_eq_none_iff.mp hfresh k hk earlier hearlier hk'
  generalize (t.insert row keep).1 = outcome, (t.insert row keep).2 = t' at hhandles
  cases hhandles with
  | gained => rfl
  | kept _ mem has same => exact absurd has (hnone _ _ same mem)
  | replaced _ has same before =>
    exact absurd has (hnone _ _ same (before ▸ List.mem_append_right _ List.mem_cons_self))

/-- A row that recurs meets a stored row of its key. -/
theorem Stands.exists_stored (h : Stands column (rows.map fun row => (row, keep)) t)
    {replaced : Row} (hprevious : previous t.keyOf? rows row = some replaced) :
    ∃ k, t.keyOf? row = some k ∧ ∃ stored ∈ t.rows, t.keyOf? stored = some k := by
  obtain ⟨k, hk, hlast⟩ := previous_eq_some hprevious
  obtain ⟨hmem, hsame⟩ := List.mem_filter.mp (List.mem_of_getLast? hlast)
  exact ⟨k, hk, h.exists_stored_iff.mpr ⟨replaced, hmem, of_decide_eq_true hsame⟩⟩

/-- Where stored rows stay, a row that recurs is left out. -/
theorem Stands.insert_old (h : Stands column (rows.map fun row => (row, .old)) t)
    {replaced : Row} (hprevious : previous t.keyOf? rows row = some replaced) :
    ∃ k, t.keyOf? row = some k ∧ t.insert row .old = (.discarded k, t) := by
  obtain ⟨k, hk, stored, hmem, hsame⟩ := h.exists_stored hprevious
  refine ⟨k, hk, ?_⟩
  have hhandles := (insert_handles h.indexed row .old).2
  rcases hinsert : t.insert row .old with ⟨outcome, t'⟩
  rw [hinsert] at hhandles
  cases hhandles with
  | gained fresh => exact absurd hsame (fresh k hk stored hmem)
  | kept _ _ _ same => rw [Option.some.inj (hk.symm.trans same)]
  | replaced new => cases new

/-- If every row is to replace what it meets, the last stands for its key. -/
theorem standing_new (key : Row → Option String) (k : String) (rows : List Row) :
    standing key k (rows.map fun row => (row, .new))
      = (rows.filter fun row => key row = some k).getLast? := by
  have hown : (rows.map fun row => (row, Keep.new)).filter (fun arrival => key arrival.1 = some k)
      = (rows.filter fun row => key row = some k).map fun row => (row, Keep.new) := by
    rw [List.filter_map]
    rfl
  rw [standing, hown]
  generalize rows.filter (fun row => key row = some k) = own
  have hall : (own.map fun row => (row, Keep.new)).filter (fun arrival => arrival.2 = .new)
      = own.map fun row => (row, Keep.new) :=
    List.filter_eq_self.mpr fun arrival harrival => by
      obtain ⟨row, -, rfl⟩ := List.mem_map.mp harrival
      rfl
  rw [foremost, hall, List.getLast?_map]
  cases own with
  | nil => rfl
  | cons first own => simp [List.getLast?_cons]

/-- Where new rows do, it takes the place of the last row of its key. -/
theorem Stands.insert_new (h : Stands column (rows.map fun row => (row, .new)) t)
    {replaced : Row} (hprevious : previous t.keyOf? rows row = some replaced) :
    ∃ k, t.keyOf? row = some k ∧ (t.insert row .new).1 = .replaced k replaced := by
  obtain ⟨k, hk, hlast⟩ := previous_eq_some hprevious
  obtain ⟨k', hk', stored, hmem, hsame⟩ := h.exists_stored hprevious
  obtain rfl := Option.some.inj (hk.symm.trans hk')
  refine ⟨k, hk, ?_⟩
  have hstanding : ∀ stored ∈ t.rows, t.keyOf? stored = some k → stored = replaced := by
    intro stored hmem hsame
    have hstands := standing_of_mem_settled (h.rows ▸ hmem) hsame
    rw [standing_new, hlast] at hstands
    exact (Option.some.inj hstands).symm
  have hhandles := (insert_handles h.indexed row .new).2
  generalize (t.insert row .new).1 = outcome, (t.insert row .new).2 = t' at hhandles
  cases hhandles with
  | gained fresh => exact absurd hsame (fresh k hk stored hmem)
  | kept old => cases old
  | replaced _ has same before =>
    obtain rfl := Option.some.inj (hk.symm.trans same)
    rw [hstanding _ (before ▸ List.mem_append_right _ List.mem_cons_self) has]

/-- The rows of a table that was given rows of which none recurs. -/
theorem Stands.rows_of_captured {start : Table} (hstart : start.Indexed)
    {entries : List (Row × Bytes)}
    (h : Stands start.keyColumn ((start.rows ++ entries.map Prod.fst).map fun row => (row, keep)) t)
    (hnone : captured start.keyOf? keep start.rows entries = []) :
    t.rows = start.rows ++ entries.map Prod.fst := by
  have hkey : t.keyOf? = start.keyOf? := (keyOf?_eq h.keyColumn).trans (keyOf?_eq rfl).symm
  rw [h.rows, hkey]
  exact settled_of_distinct keep (distinct_of_captured hstart.distinct hnone)

end Table

/-! ## What a writer makes of it -/

/-- A greater number is too many where a smaller one is. -/
theorem Limit.exceededBy_mono {limit : Limit} {m n : Nat} (hle : m ≤ n)
    (h : limit.exceededBy m = true) : limit.exceededBy n = true := by
  cases limit with
  | unlimited => cases h
  | limited max => exact decide_eq_true (Nat.lt_of_lt_of_le (of_decide_eq_true h) hle)

/-- A record that is kept comes after what is in the file, and is written
there at once if it is one too many. -/
theorem Duplicates.reject_keeps {d : Duplicates} {path name : String} {s : Site} {bs : Bytes}
    (h : d.file.Keeps path name s.directory bs) (record : Bytes) :
    ∃ d' s', d.reject record s
        = (if d.limit.exceededBy (d.counts.duplicateNew + d.counts.duplicateOld)
            then .error (.duplicateLimit (d.counts.duplicateNew + d.counts.duplicateOld)
              d.limit.number)
            else .ok (), d', s') ∧
      d'.policy = d.policy ∧ d'.limit = d.limit ∧ d'.counts = d.counts ∧
      d'.file.Keeps path name s'.directory (bs ++ record) ∧
      (d.limit.exceededBy (d.counts.duplicateNew + d.counts.duplicateOld) = true →
        s'.directory.bytesAt name = bs ++ record) := by
  obtain ⟨file, directory, happend, hkeeps, -⟩ := h.append record
  unfold reject
  rw [happend]
  dsimp only
  split
  · next hmany =>
    obtain ⟨hflushed, -, hbytes⟩ := hkeeps.flush
    exact ⟨_, _, rfl, rfl, rfl, rfl, hflushed, fun _ => hbytes⟩
  · next hfew => exact ⟨_, _, rfl, rfl, rfl, rfl, hkeeps, fun hmany => absurd hmany hfew⟩

namespace LocalWriter

/-- Which row of a key stays under a policy. -/
def keptUnder (policy : DuplicatePolicy) : Keep :=
  ({ policy := policy, limit := .unlimited } : Duplicates).keep

/-- A direct writer over a table that never fails, with a file for
duplicates. -/
def overTable (t : Table) (policy : DuplicatePolicy) (limit : Limit) (path : String) :
    LocalWriter where
  storage := { medium := .table t }
  duplicates := { policy := policy, limit := limit, file := { path := some path } }

/-- A direct writer over a table that has been given some rows: what it
has counted, what its table holds and what its file of duplicates keeps. -/
structure Given (t : Table) (policy : DuplicatePolicy) (limit : Limit) (path name : String)
    (before : Bytes) (w : LocalWriter) (s : Site) (keep : Keep) (entries : List (Row × Bytes)) :
    Prop where
  opened : w.closed = false
  direct : w.batch = none
  pending : w.pending = []
  reliable : ∀ call n, w.storage.failures call n = none
  policy_eq : w.duplicates.policy = policy
  limit_eq : w.duplicates.limit = limit
  keep_eq : w.duplicates.keep = keep
  table : ∃ t', w.storage.medium = .table t' ∧
    Table.Stands t.keyColumn ((t.rows ++ entries.map Prod.fst).map fun row => (row, keep)) t'
  stored : w.duplicates.counts.inserted + (captured t.keyOf? keep t.rows entries).length
    = entries.length
  recurred : w.duplicates.counts.duplicateNew + w.duplicates.counts.duplicateOld
    = (captured t.keyOf? keep t.rows entries).length
  file : w.duplicates.file.Keeps path name s.directory
    (before ++ (captured t.keyOf? keep t.rows entries).flatten)

section Given

variable {t : Table} {policy : DuplicatePolicy} {limit : Limit} {path name : String}
  {before : Bytes} {keep : Keep} {w : LocalWriter} {s : Site} {entries : List (Row × Bytes)}
  {row : Row} {raw : Bytes}

/-- A writer to begin with. -/
theorem given_overTable (policy : DuplicatePolicy) (limit : Limit) (ht : t.Indexed)
    (hopen : (s.directory.openToAppend path).1 = .ok name) :
    Given t policy limit path name (s.directory.bytesAt name) (overTable t policy limit path) s
      (keptUnder policy) [] where
  opened := rfl
  direct := rfl
  pending := rfl
  reliable := fun _ _ => rfl
  policy_eq := rfl
  limit_eq := rfl
  keep_eq := rfl
  table := by
    refine ⟨t, rfl, ?_⟩
    rw [List.map_nil, List.append_nil]
    exact ht.stands _
  stored := rfl
  recurred := rfl
  file := ⟨rfl, hopen, .inl ⟨rfl, rfl⟩, rfl⟩

/-- The rows of a table, one more being given. -/
theorem arrived_concat (start : List Row) (entries : List (Row × Bytes)) (row : Row)
    (raw : Bytes) (keep : Keep) :
    (start ++ (entries ++ [(row, raw)]).map Prod.fst).map (fun row => (row, keep))
      = (start ++ entries.map Prod.fst).map (fun row => (row, keep)) ++ [(row, keep)] := by
  simp

/-- A row goes to the table, and what the table makes of it to the account. -/
theorem Given.insert_eq (h : Given t policy limit path name before w s keep entries) (row : Row)
    (raw : Bytes) :
    ∃ t' storage, w.storage.medium = .table t' ∧ t'.keyOf? = t.keyOf? ∧
      Table.Stands t.keyColumn ((t.rows ++ entries.map Prod.fst).map fun row => (row, keep)) t' ∧
      storage.medium = .table (t'.insert row keep).2 ∧
      (∀ call n, storage.failures call n = none) ∧
      w.insert row raw s
        = ((w.duplicates.record (t'.insert row keep).1 raw s).1,
          { w with
            storage := storage
            duplicates := (w.duplicates.record (t'.insert row keep).1 raw s).2.1 },
          (w.duplicates.record (t'.insert row keep).1 raw s).2.2) := by
  obtain ⟨t', hmedium, hstands⟩ := h.table
  have hkey := (Table.keyOf?_eq hstands.keyColumn).trans (Table.keyOf?_eq rfl).symm
  have hdirect : w.insert row raw s = w.insertDirect row raw s := by
    unfold LocalWriter.insert
    rw [h.opened, h.direct]
    rfl
  refine ⟨t', { w.storage with
    inserts := w.storage.inserts + 1, medium := .table (t'.insert row keep).2 },
    hmedium, hkey, hstands, rfl, h.reliable, hdirect.trans ?_⟩
  unfold insertDirect Storage.insert
  dsimp only
  rw [h.reliable, hmedium, h.keep_eq]

/-- The writer once a row has been given, if the account is right. -/
theorem Given.next (h : Given t policy limit path name before w s keep entries) {t' : Table}
    (hstands : Table.Stands t.keyColumn
      ((t.rows ++ entries.map Prod.fst).map fun row => (row, keep)) t')
    {storage : Storage} (hmedium : storage.medium = .table (t'.insert row keep).2)
    (hreliable : ∀ call n, storage.failures call n = none) {d : Duplicates} {s' : Site}
    (hpolicy : d.policy = policy) (hlimit : d.limit = limit)
    (hstored : d.counts.inserted
      = w.duplicates.counts.inserted + if capture t.keyOf? keep (t.rows ++ entries.map Prod.fst)
          (row, raw) = none then 1 else 0)
    (hrecurred : d.counts.duplicateNew + d.counts.duplicateOld
      = w.duplicates.counts.duplicateNew + w.duplicates.counts.duplicateOld
        + (capture t.keyOf? keep (t.rows ++ entries.map Prod.fst) (row, raw)).toList.length)
    (hfile : d.file.Keeps path name s'.directory
      (before ++ (captured t.keyOf? keep t.rows (entries ++ [(row, raw)])).flatten)) :
    Given t policy limit path name before { w with storage := storage, duplicates := d } s' keep
      (entries ++ [(row, raw)]) where
  opened := h.opened
  direct := h.direct
  pending := h.pending
  reliable := hreliable
  policy_eq := hpolicy
  limit_eq := hlimit
  keep_eq := (Duplicates.keep_congr (hpolicy.trans h.policy_eq.symm)).trans h.keep_eq
  table := by
    refine ⟨_, hmedium, ?_⟩
    rw [arrived_concat]
    exact hstands.call (.insert row keep)
  stored := by
    have hstored' := h.stored
    rw [captured_concat, List.length_append, List.length_append, List.length_singleton, hstored]
    cases capture t.keyOf? keep (t.rows ++ entries.map Prod.fst) (row, raw) with
    | none => simp; omega
    | some bytes => simp; omega
  recurred := by
    rw [captured_concat, List.length_append, hrecurred, h.recurred]
  file := hfile

/-- A row that does not recur is stored, and that is all. -/
theorem Given.insert_fresh (h : Given t policy limit path name before w s keep entries)
    (hfresh : previous t.keyOf? (t.rows ++ entries.map Prod.fst) row = none) (raw : Bytes) :
    ∃ w', w.insert row raw s = (.ok (), w', s) ∧
      Given t policy limit path name before w' s keep (entries ++ [(row, raw)]) := by
  obtain ⟨t', storage, -, hkey, hstands, hmedium, hreliable, hinsert⟩ := h.insert_eq row raw
  have hcapture : capture t.keyOf? keep (t.rows ++ entries.map Prod.fst) (row, raw) = none :=
    Option.map_eq_none_iff.mpr hfresh
  rw [hstands.insert_fresh (hkey ▸ hfresh)] at hinsert
  refine ⟨_, hinsert, h.next hstands hmedium hreliable h.policy_eq h.limit_eq ?_ ?_ ?_⟩
  · rw [if_pos hcapture]
    rfl
  · rw [hcapture]
    rfl
  · rw [captured_concat, hcapture, Option.toList_none, List.append_nil]
    exact h.file

/-- What the account does with a row that recurs. -/
theorem Given.record_again (h : Given t policy limit path name before w s keep entries)
    (hpolicy : policy ≠ .error) {t' : Table} (hkey : t'.keyOf? = t.keyOf?)
    (hstands : Table.Stands t.keyColumn
      ((t.rows ++ entries.map Prod.fst).map fun row => (row, keep)) t') {bytes : Bytes}
    (hcapture : capture t.keyOf? keep (t.rows ++ entries.map Prod.fst) (row, raw) = some bytes) :
    ∃ (d : Duplicates) (text : String),
      w.duplicates.record (t'.insert row keep).1 raw s = d.reject bytes (s.warn text) ∧
      d.policy = policy ∧ d.limit = limit ∧ d.file = w.duplicates.file ∧
      d.counts.inserted = w.duplicates.counts.inserted ∧
      d.counts.duplicateNew + d.counts.duplicateOld
        = w.duplicates.counts.duplicateNew + w.duplicates.counts.duplicateOld + 1 := by
  obtain ⟨replaced, hprevious, rfl⟩ := Option.map_eq_some_iff.mp hcapture
  rw [← hkey] at hprevious
  cases keep with
  | old =>
    obtain ⟨k, -, hinsert⟩ := hstands.insert_old hprevious
    rw [hinsert]
    unfold Duplicates.record
    dsimp only
    rw [if_neg (h.policy_eq ▸ hpolicy)]
    exact ⟨_, _, rfl, h.policy_eq, h.limit_eq, rfl, rfl, by dsimp only; omega⟩
  | new =>
    obtain ⟨k, -, hinsert⟩ := hstands.insert_new hprevious
    rw [hinsert]
    exact ⟨_, _, rfl, h.policy_eq, h.limit_eq, rfl, rfl, by dsimp only; omega⟩

/-- **A row that recurs has one entry in the file**, also if it is one too
many, and then it fails. -/
theorem Given.insert_again (h : Given t policy limit path name before w s keep entries)
    (hpolicy : policy ≠ .error) {bytes : Bytes}
    (hcapture : capture t.keyOf? keep (t.rows ++ entries.map Prod.fst) (row, raw) = some bytes) :
    ∃ w' s', w.insert row raw s
        = (if limit.exceededBy ((captured t.keyOf? keep t.rows entries).length + 1)
            then .error (.duplicateLimit ((captured t.keyOf? keep t.rows entries).length + 1)
              limit.number)
            else .ok (), w', s') ∧
      Given t policy limit path name before w' s' keep (entries ++ [(row, raw)]) ∧
      (limit.exceededBy ((captured t.keyOf? keep t.rows entries).length + 1) = true →
        s'.directory.bytesAt name
          = before ++ (captured t.keyOf? keep t.rows (entries ++ [(row, raw)])).flatten) := by
  obtain ⟨t', storage, -, hkey, hstands, hmedium, hreliable, hinsert⟩ := h.insert_eq row raw
  obtain ⟨d, text, hrecord, hpolicy', hlimit, hfile, hinserted, hrecurred⟩ :=
    h.record_again hpolicy hkey hstands hcapture
  have hkeeps : d.file.Keeps path name (s.warn text).directory
      (before ++ (captured t.keyOf? keep t.rows entries).flatten) := by
    rw [hfile]
    exact h.file
  have hbytes : before ++ (captured t.keyOf? keep t.rows (entries ++ [(row, raw)])).flatten
      = before ++ (captured t.keyOf? keep t.rows entries).flatten ++ bytes := by
    rw [captured_concat, hcapture, Option.toList_some, List.flatten_append,
      List.flatten_singleton, List.append_assoc]
  -- The row is counted before its record is kept, so that the limit is held to it too.
  obtain ⟨d', s', hreject, hpolicy'', hlimit', hcounts, hkept, hwritten⟩ :=
    Duplicates.reject_keeps hkeeps bytes
  rw [hrecord, hreject, hlimit, hrecurred, h.recurred] at hinsert
  rw [hlimit, hrecurred, h.recurred] at hwritten
  refine ⟨_, _, hinsert, h.next hstands hmedium hreliable (hpolicy''.trans hpolicy')
    (hlimit'.trans hlimit) ?_ ?_ ?_, ?_⟩
  · rw [hcounts, hinserted, hcapture]
    rfl
  · rw [hcounts, hrecurred, hcapture]
    rfl
  · rw [hbytes]
    exact hkept
  · rw [hbytes]
    exact hwritten

/-- Where duplicates are errors a row that recurs fails, and it is as if
it had not been given. -/
theorem Given.insert_refused (h : Given t .error limit path name before w s .old entries)
    {replaced : Row}
    (hprevious : previous t.keyOf? (t.rows ++ entries.map Prod.fst) row = some replaced)
    (raw : Bytes) :
    ∃ k w', t.keyOf? row = some k ∧ w.insert row raw s = (.error (.duplicateKey k), w', s) ∧
      Given t .error limit path name before w' s .old entries := by
  obtain ⟨t', storage, -, hkey, hstands, hmedium, hreliable, hinsert⟩ := h.insert_eq row raw
  obtain ⟨k, hk, hleft⟩ := hstands.insert_old (hkey ▸ hprevious)
  have hrecord : w.duplicates.record (.discarded k) raw s
      = (.error (.duplicateKey k), w.duplicates, s) := by
    unfold Duplicates.record
    dsimp only
    rw [if_pos h.policy_eq]
  rw [hleft] at hinsert hmedium
  rw [hrecord] at hinsert
  exact ⟨k, _, hkey ▸ hk, hinsert,
    { h with reliable := hreliable, table := ⟨t', hmedium, hstands⟩ }⟩

/-! ### Rows one after another -/

/-- Rows of which none recurs are stored, and that is all. -/
theorem Given.run_fresh (h : Given t policy limit path name before w s keep entries)
    (rest : List (Row × Bytes))
    (hnone : captured t.keyOf? keep (t.rows ++ entries.map Prod.fst) rest = []) :
    ∃ w', w.insertEach s rest = (.ok (), w', s) ∧
      Given t policy limit path name before w' s keep (entries ++ rest) := by
  induction rest generalizing w entries with
  | nil =>
    rw [List.append_nil]
    exact ⟨w, rfl, h⟩
  | cons entry rest ih =>
    obtain ⟨row, raw⟩ := entry
    obtain ⟨hentry, hrest⟩ := List.append_eq_nil_iff.mp hnone
    have hfresh : previous t.keyOf? (t.rows ++ entries.map Prod.fst) row = none :=
      Option.map_eq_none_iff.mp (Option.toList_eq_nil_iff.mp hentry)
    obtain ⟨w₁, hinsert, h₁⟩ := h.insert_fresh hfresh raw
    rw [List.append_assoc, ← List.map_singleton, ← List.map_append] at hrest
    obtain ⟨w', hrun, h'⟩ := ih h₁ hrest
    rw [insertEach, hinsert, List.append_cons]
    exact ⟨w', hrun, h'⟩

/-- As long as no more rows recur than may, all are taken. -/
theorem Given.run_within (h : Given t policy limit path name before w s keep entries)
    (hpolicy : policy ≠ .error) (rest : List (Row × Bytes))
    (hwithin : limit.exceededBy (captured t.keyOf? keep t.rows (entries ++ rest)).length = false) :
    ∃ w' s', w.insertEach s rest = (.ok (), w', s') ∧
      Given t policy limit path name before w' s' keep (entries ++ rest) := by
  induction rest generalizing w s entries with
  | nil =>
    rw [List.append_nil]
    exact ⟨w, s, rfl, h⟩
  | cons entry rest ih =>
    obtain ⟨row, raw⟩ := entry
    rw [List.append_cons] at hwithin ⊢
    obtain ⟨w₁, s₁, hinsert, h₁⟩ : ∃ w₁ s₁, w.insert row raw s = (.ok (), w₁, s₁) ∧
        Given t policy limit path name before w₁ s₁ keep (entries ++ [(row, raw)]) := by
      cases hcapture : capture t.keyOf? keep (t.rows ++ entries.map Prod.fst) (row, raw) with
      | none =>
        obtain ⟨w₁, hinsert, h₁⟩ := h.insert_fresh (Option.map_eq_none_iff.mp hcapture) raw
        exact ⟨w₁, s, hinsert, h₁⟩
      | some bytes =>
        obtain ⟨w₁, s₁, hinsert, h₁, -⟩ := h.insert_again hpolicy hcapture
        refine ⟨w₁, s₁, ?_, h₁⟩
        rw [hinsert, if_neg]
        intro hmany
        refine Bool.false_ne_true (hwithin.symm.trans (Limit.exceededBy_mono ?_ hmany))
        rw [captured_append, captured_concat, hcapture]
        simp
    obtain ⟨w', s', hrun, h'⟩ := ih h₁ hwithin
    rw [insertEach, hinsert]
    exact ⟨w', s', hrun, h'⟩

/-- However the writer is closed, all entries are in the file then. -/
theorem Given.close (h : Given t policy limit path name before w s keep entries)
    (onError : Bool) :
    ∃ w' s', w.close onError s = (.ok w.duplicates.counts, w', s') ∧
      s'.directory.bytesAt name
        = before ++ (captured t.keyOf? keep t.rows entries).flatten := by
  obtain ⟨t', hmedium, -⟩ := h.table
  obtain ⟨-, -, hbytes⟩ := h.file.flush
  unfold LocalWriter.close
  rw [if_neg (Bool.eq_false_iff.mp h.opened)]
  cases onError with
  | true => exact ⟨_, _, rfl, hbytes⟩
  | false =>
    have hflush : ({ w with closed := true } : LocalWriter).flush s
        = (.ok (), { w with closed := true }, s) := by
      rw [flush_eq]
      exact if_pos (List.isEmpty_iff.mpr h.pending)
    have hfinish : w.storage.finish s.directory
        = (.ok (), { w.storage with finishes := w.storage.finishes + 1 }, s.directory) := by
      unfold Storage.finish
      dsimp only
      rw [h.reliable, hmedium]
    dsimp only
    rw [if_neg Bool.false_ne_true, hflush]
    dsimp only
    unfold LocalWriter.finish
    dsimp only
    rw [hfinish]
    exact ⟨_, _, rfl, hbytes⟩

/-- A writer whose rows have all been new has counted them and nothing else. -/
theorem Given.counts_of_captured (h : Given t policy limit path name before w s keep entries)
    (hnone : captured t.keyOf? keep t.rows entries = []) :
    w.duplicates.counts = { inserted := entries.length } := by
  have hstored := h.stored
  have hrecurred := h.recurred
  rw [hnone] at hstored hrecurred
  generalize w.duplicates.counts = counts at hstored hrecurred
  obtain ⟨inserted, duplicateNew, duplicateOld⟩ := counts
  obtain ⟨rfl, rfl⟩ := Nat.add_eq_zero_iff.mp hrecurred
  rw [← show inserted = entries.length from hstored]

/-- Its table holds them behind the rows that were there at first. -/
theorem Given.rows_of_captured (h : Given t policy limit path name before w s keep entries)
    (ht : t.Indexed) (hnone : captured t.keyOf? keep t.rows entries = []) :
    ∃ t', w.storage.medium = .table t' ∧ t'.rows = t.rows ++ entries.map Prod.fst := by
  obtain ⟨t', hmedium, hstands⟩ := h.table
  exact ⟨t', hmedium, hstands.rows_of_captured ht hnone⟩

end Given

/-- The texts of a row's values, of two at least, are read back from their
line; those without bytes are NULL. -/
theorem line_legible {row : Row} (h : 2 ≤ row.width) :
    split .csv [] (stripEnd (Csv.line (row.values.map fun v => Bytes.ofString v.display)))
      = row.values.map fun v =>
          ⟨Bytes.ofString v.display, (Bytes.ofString v.display).isEmpty⟩ := by
  rw [Csv.split_line (fun _ h => absurd h List.not_mem_nil) (Csv.encodeFields_ne_nil ?_),
    List.map_map]
  · rfl
  · rwa [List.length_map]

/-- What the file of duplicates gains for rows that are given to a writer
over a table: one entry for each that recurs. -/
def repeats (t : Table) (policy : DuplicatePolicy) (entries : List (Row × Bytes)) : List Bytes :=
  captured t.keyOf? (keptUnder policy) t.rows entries

theorem repeats_concat (t : Table) (policy : DuplicatePolicy) (front : List (Row × Bytes))
    (entry : Row × Bytes) :
    repeats t policy (front ++ [entry])
      = repeats t policy front
        ++ (capture t.keyOf? (keptUnder policy) (t.rows ++ front.map Prod.fst) entry).toList :=
  captured_concat front entry

/-- How a direct writer over a table holds the rows that it is given to
its policy and its limit. -/
structure Threshold (t : Table) (policy : DuplicatePolicy) (limit : Limit) (path name : String)
    (s : Site) (entries : List (Row × Bytes)) : Prop where
  /-- A row that does not recur adds no entry. -/
  fresh : ∀ front row raw, previous t.keyOf? (t.rows ++ front.map Prod.fst) row = none →
    repeats t policy (front ++ [(row, raw)]) = repeats t policy front
  /-- Where stored rows stay, the entry of one that does is its record. -/
  own : policy = .keepOld → ∀ front row raw replaced,
    previous t.keyOf? (t.rows ++ front.map Prod.fst) row = some replaced →
    repeats t policy (front ++ [(row, raw)]) = repeats t policy front ++ [raw]
  /-- Where new rows take their places, the entry has the texts of the
  values of the row that is replaced, in a line that can be read again. -/
  rendered : policy = .keepNew → ∀ front row raw replaced,
    previous t.keyOf? (t.rows ++ front.map Prod.fst) row = some replaced →
    let line := Csv.line (replaced.values.map fun v => Bytes.ofString v.display)
    repeats t policy (front ++ [(row, raw)]) = repeats t policy front ++ [line] ∧
      (2 ≤ replaced.width → split .csv [] (stripEnd line) = replaced.values.map fun v =>
        ⟨Bytes.ofString v.display, (Bytes.ofString v.display).isEmpty⟩)
  /-- If no more rows recur than may, every row is taken, and the file has
  gained an entry for each that does, however the writer is closed. -/
  within : policy ≠ .error → limit.exceededBy (repeats t policy entries).length = false →
    ∃ w' s', (overTable t policy limit path).insertEach s entries = (.ok (), w', s') ∧
      ∀ onError, (w'.close onError s').2.2.directory.bytesAt name
        = s.directory.bytesAt name ++ (repeats t policy entries).flatten
  /-- If more do, the first that is one too many fails. The rows before it
  have been taken, and by then the file has gained their entries and its
  own. -/
  beyond : policy ≠ .error → ∀ max, limit = .limited max → max < (repeats t policy entries).length →
    ∃ front row raw back bytes w₁ s₁ w' s', entries = front ++ (row, raw) :: back ∧
      (repeats t policy front).length = max ∧
      repeats t policy (front ++ [(row, raw)]) = repeats t policy front ++ [bytes] ∧
      (overTable t policy limit path).insertEach s front = (.ok (), w₁, s₁) ∧
      w₁.insert row raw s₁ = (.error (.duplicateLimit (max + 1) max), w', s') ∧
      s'.directory.bytesAt name
        = s.directory.bytesAt name ++ (repeats t policy front ++ [bytes]).flatten
  /-- Where duplicates are errors, rows of which none recurs are stored. -/
  distinct : policy = .error → repeats t policy entries = [] →
    ∃ w' t', (overTable t policy limit path).insertEach s entries = (.ok (), w', s) ∧
      w'.storage.medium = .table t' ∧ t'.rows = t.rows ++ entries.map Prod.fst
  /-- The first that recurs fails with its key. It is not counted, stored
  or written, and only the rows before it have come to the table. -/
  refused : policy = .error → repeats t policy entries ≠ [] →
    ∃ front row raw back k w₁ w' t', entries = front ++ (row, raw) :: back ∧
      repeats t policy front = [] ∧ repeats t policy (front ++ [(row, raw)]) ≠ [] ∧
      (overTable t policy limit path).insertEach s front = (.ok (), w₁, s) ∧
      t.keyOf? row = some k ∧ w₁.insert row raw s = (.error (.duplicateKey k), w', s) ∧
      w'.duplicates.counts = { inserted := front.length } ∧
      w'.storage.medium = .table t' ∧ t'.rows = t.rows ++ front.map Prod.fst ∧
      ∀ onError, (w'.close onError s).2.2.directory.bytesAt name = s.directory.bytesAt name

variable {t : Table} {policy : DuplicatePolicy} {limit : Limit} {path name : String} {s : Site}

/-- **A direct writer holds duplicates to their policy and their limit**,
whatever is in the table at first and whichever rows it is given. -/
theorem overTable_threshold (ht : t.Indexed)
    (hopen : (s.directory.openToAppend path).1 = .ok name) (policy : DuplicatePolicy)
    (limit : Limit) (entries : List (Row × Bytes)) :
    Threshold t policy limit path name s entries where
  fresh front row raw hnew := by
    rw [repeats_concat, capture, hnew]
    exact List.append_nil _
  own hpolicy front row raw replaced hprevious := by
    subst hpolicy
    rw [repeats_concat, capture, hprevious]
    rfl
  rendered hpolicy front row raw replaced hprevious := by
    subst hpolicy
    refine ⟨?_, line_legible⟩
    rw [repeats_concat, capture, hprevious]
    rfl
  within hpolicy hwithin := by
    have hstart := given_overTable policy limit ht hopen
    obtain ⟨w', s', hrun, hgiven⟩ := hstart.run_within hpolicy entries hwithin
    refine ⟨w', s', hrun, fun onError => ?_⟩
    obtain ⟨w'', s'', hclose, hbytes⟩ := hgiven.close onError
    rw [hclose]
    exact hbytes
  beyond hpolicy max hlimit hbeyond := by
    have hstart := given_overTable policy limit ht hopen
    obtain ⟨front, ⟨row, raw⟩, back, bytes, rfl, hlength, hcapture⟩ := exists_beyond hbeyond
    have hwithin : limit.exceededBy (repeats t policy front).length = false := by
      rw [hlimit, repeats, hlength]
      exact decide_eq_false (Nat.lt_irrefl max)
    obtain ⟨w₁, s₁, hrun, hgiven⟩ := hstart.run_within hpolicy front hwithin
    obtain ⟨w', s', hinsert, -, hbytes⟩ := hgiven.insert_again hpolicy hcapture
    have hmany : limit.exceededBy (max + 1) = true := by
      rw [hlimit]
      exact decide_eq_true (Nat.lt_succ_self max)
    have hconcat : repeats t policy (front ++ [(row, raw)])
        = repeats t policy front ++ [bytes] := by
      rw [repeats_concat, hcapture]
      rfl
    rw [List.nil_append, hlength] at hinsert hbytes
    refine ⟨front, row, raw, back, bytes, w₁, s₁, w', s', rfl, hlength, hconcat, hrun, ?_, ?_⟩
    · rw [hinsert, if_pos hmany, hlimit]
      rfl
    · rw [← hconcat]
      exact hbytes hmany
  distinct hpolicy hnone := by
    subst hpolicy
    have hstart := given_overTable .error limit ht hopen
    obtain ⟨w', hrun, hgiven⟩ := hstart.run_fresh entries (by rwa [List.map_nil, List.append_nil])
    obtain ⟨t', hmedium, hrows⟩ := hgiven.rows_of_captured ht hnone
    exact ⟨w', t', hrun, hmedium, hrows⟩
  refused hpolicy hsome := by
    subst hpolicy
    have hstart := given_overTable .error limit ht hopen
    obtain ⟨front, ⟨row, raw⟩, back, bytes, rfl, hlength, hcapture⟩ :=
      exists_beyond (List.length_pos_iff.mpr hsome)
    have hnone : repeats t .error front = [] := List.eq_nil_of_length_eq_zero hlength
    obtain ⟨w₁, hrun, hgiven⟩ := hstart.run_fresh front (by rwa [List.map_nil, List.append_nil])
    obtain ⟨replaced, hprevious, -⟩ := Option.map_eq_some_iff.mp hcapture
    obtain ⟨k, w', hk, hinsert, hafter⟩ := hgiven.insert_refused hprevious raw
    obtain ⟨t', hmedium, hrows⟩ := hafter.rows_of_captured ht hnone
    refine ⟨front, row, raw, back, k, w₁, w', t', rfl, hnone, ?_, hrun, hk, hinsert,
      hafter.counts_of_captured hnone, hmedium, hrows, fun onError => ?_⟩
    · rw [repeats_concat, hcapture]
      exact List.append_ne_nil_of_right_ne_nil _ (List.cons_ne_nil _ _)
    · obtain ⟨w'', s'', hclose, hbytes⟩ := hafter.close onError
      rw [hclose, hbytes, List.nil_append]
      exact (congrArg (s.directory.bytesAt name ++ ·.flatten) hnone).trans (List.append_nil _)

/-- A table of one row, and two rows with its key among three. One may
recur: the second that does is one too many. By then the file has the row
that was stored at first and the one that took its place. -/
theorem overTable_threshold_recurring :
    let t := (({ keyColumn := some 0 } : Table).insert
      (.ofValues [.int32 1, .ofString "a,\"b\""]) .old).2
    let entries : List (Row × Bytes) :=
      [(.ofValues [.int32 1, .null], Bytes.ascii "01,\n"),
        (.ofValues [.int32 2, .ofString "c"], Bytes.ascii "2,c\n"),
        (.ofValues [.int32 1, .ofString "d"], Bytes.ascii "1,d\n")]
    let ended := (overTable t .keepNew (.limited 1) "again").insertEach {} entries
    t.Indexed ∧ (({} : Site).directory.openToAppend "again").1 = .ok "again" ∧
      Threshold t .keepNew (.limited 1) "again" "again" {} entries ∧
      1 < (repeats t .keepNew entries).length ∧ ended.1 = .error (.duplicateLimit 2 1) ∧
      ended.2.2.directory.bytesAt "again" = Bytes.ascii "1,\"a,\"\"b\"\"\"\n1,\n" := by
  intro t entries ended
  have hindexed : t.Indexed := (Table.insert_handles (Table.indexed_empty (some 0)) _ .old).1
  have hopen : (({} : Site).directory.openToAppend "again").1 = .ok "again" := by decide +kernel
  exact ⟨hindexed, hopen, overTable_threshold hindexed hopen .keepNew (.limited 1) entries,
    by decide +kernel, by decide +kernel, by decide +kernel⟩

end LocalWriter
end Intake
