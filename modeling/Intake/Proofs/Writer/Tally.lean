import Intake.Proofs.Storage.Table
import Intake.Proofs.Writer.Waiting
/-!
# Counts and what is stored

A writer over a table counts what becomes of its rows. Here its counts are
held against the table's own course (`Table.Course`), whichever call of
the storage fails and whenever the account of duplicates has had enough.

A direct writer accounts for each row as soon as it is stored, and its
counts are right however it ends. A writer with batches has the storage
take a whole batch first and accounts for it afterwards. If the storage
fails inside a batch, or the account stops at one of its rows, the rows of
that batch that were stored and not accounted for are *adrift*: the table
has them and the counts do not. `counts_of_deliver` says that this is all
that can go amiss. There are fewer of them than a batch has rows, none
where nothing fails, and the counts are right exactly where what is adrift
counts for nothing. `batch_adrift` is a batch of which one row is.
-/

namespace Intake

/-! ## The counts of outcomes -/

/-- What outcomes come to under a policy. A row that is refused as an
error is not one that was left out. -/
def Counts.tally (policy : DuplicatePolicy) (outcomes : List Outcome) : Counts where
  inserted := outcomes.countP Outcome.isGain
  duplicateNew := if policy = .error then 0 else outcomes.countP Outcome.isDiscard
  duplicateOld := outcomes.countP Outcome.isReplacement

/-- Two counts together. -/
def Counts.plus (c c' : Counts) : Counts where
  inserted := c.inserted + c'.inserted
  duplicateNew := c.duplicateNew + c'.duplicateNew
  duplicateOld := c.duplicateOld + c'.duplicateOld

theorem Counts.tally_append (policy : DuplicatePolicy) (xs ys : List Outcome) :
    Counts.tally policy (xs ++ ys) = (Counts.tally policy xs).plus (Counts.tally policy ys) := by
  unfold tally plus
  simp only [List.countP_append]
  by_cases h : policy = .error <;> simp [h]

theorem Counts.plus_empty (c : Counts) (policy : DuplicatePolicy) :
    c.plus (Counts.tally policy []) = c := by
  simp [plus, tally]

/-- Only nothing can be added without a change. -/
theorem Counts.eq_plus_iff (c c' : Counts) : c = c.plus c' ↔ c' = {} := by
  obtain ⟨inserted, duplicateNew, duplicateOld⟩ := c
  obtain ⟨inserted', duplicateNew', duplicateOld'⟩ := c'
  simp only [plus, mk.injEq]
  omega

theorem Counts.plus_assoc (a b c : Counts) : (a.plus b).plus c = a.plus (b.plus c) := by
  simp [plus, Nat.add_assoc]

/-- Counts that say of a table's course what it did: how many rows it
gained, how many stored rows gave their place up, and how many rows were
left out for a stored one where the old row is to stay. -/
structure Counts.Faithful (c : Counts) (policy : DuplicatePolicy) (t t' : Table)
    (past : List (Row × Outcome)) : Prop where
  gained : t'.rows.length = t.rows.length + c.inserted
  replaced : c.duplicateOld = (past.map Prod.snd).countP Outcome.isReplacement
  discarded : c.duplicateNew
    = if policy = .keepOld then (past.map Prod.snd).countP Outcome.isDiscard else 0

/-! ## Accounting -/

namespace Duplicates

theorem keep_congr {t t' : Duplicates} (h : t'.policy = t.policy) : t'.keep = t.keep := by
  unfold keep
  rw [h]

/-- Keeping a record counts nothing. -/
theorem reject_eq (t : Duplicates) (record : Bytes) (s : Site) :
    (t.reject record s).2.1.policy = t.policy ∧ (t.reject record s).2.1.counts = t.counts := by
  unfold reject
  split
  · exact ⟨rfl, rfl⟩
  · dsimp only
    split <;> exact ⟨rfl, rfl⟩

/-- **One outcome is counted for what it is**, also if it is the one that
the account stops at. -/
theorem record_eq (t : Duplicates) (outcome : Outcome) (raw : Bytes) (s : Site) :
    (t.record outcome raw s).2.1.policy = t.policy ∧
      (t.record outcome raw s).2.1.counts = t.counts.plus (.tally t.policy [outcome]) := by
  cases outcome with
  | inserted =>
    refine ⟨rfl, ?_⟩
    simp [record, Counts.plus, Counts.tally, Outcome.isGain, Outcome.isDiscard,
      Outcome.isReplacement]
  | discarded key =>
    unfold record
    dsimp only
    split
    · next herror =>
      refine ⟨rfl, ?_⟩
      simp [Counts.plus, Counts.tally, Outcome.isGain, Outcome.isReplacement, herror]
    · next herror =>
      obtain ⟨hpolicy, hcounts⟩ := reject_eq
        { t with counts := { t.counts with duplicateNew := t.counts.duplicateNew + 1 } } raw
        (s.warn ("duplicate key value " ++ key ++ ": new row not loaded"))
      refine ⟨hpolicy, hcounts.trans ?_⟩
      simp [Counts.plus, Counts.tally, Outcome.isGain, Outcome.isDiscard, Outcome.isReplacement,
        herror]
  | replaced key old =>
    obtain ⟨hpolicy, hcounts⟩ := reject_eq
      { t with counts := { t.counts with duplicateOld := t.counts.duplicateOld + 1 } } old.csvLine
      (s.warn ("duplicate key value " ++ key ++ ": existing row replaced"))
    refine ⟨hpolicy, hcounts.trans ?_⟩
    simp [Counts.plus, Counts.tally, Outcome.isGain, Outcome.isDiscard, Outcome.isReplacement]

end Duplicates

namespace LocalWriter

/-- **Of several outcomes those are counted that come before the account
stops**, the one it stops at included. -/
theorem recordAll_eq (t : Duplicates) (s : Site) (outcomes : List (Outcome × Bytes)) :
    ∃ done left, outcomes.map Prod.fst = done ++ left ∧
      (recordAll t s outcomes).2.1.policy = t.policy ∧
      (recordAll t s outcomes).2.1.counts = t.counts.plus (.tally t.policy done) ∧
      ((recordAll t s outcomes).1 = .ok () → left = []) ∧
      left.length < max 1 outcomes.length := by
  induction outcomes generalizing t s with
  | nil => exact ⟨[], [], rfl, rfl, (t.counts.plus_empty t.policy).symm, fun _ => rfl, Nat.one_pos⟩
  | cons first outcomes ih =>
    obtain ⟨outcome, raw⟩ := first
    obtain ⟨hpolicy, hcounts⟩ := t.record_eq outcome raw s
    rw [recordAll]
    rcases hrecord : t.record outcome raw s with ⟨_ | _, t₁, s₁⟩
    · rw [hrecord] at hpolicy hcounts
      refine ⟨[outcome], outcomes.map Prod.fst, rfl, hpolicy, hcounts, nofun, ?_⟩
      rw [List.length_map, List.length_cons]
      omega
    · rw [hrecord] at hpolicy hcounts
      obtain ⟨done, left, hsplit, hpolicy', hcounts', hall, hfew⟩ := ih t₁ s₁
      refine ⟨outcome :: done, left, congrArg (outcome :: ·) hsplit, hpolicy'.trans hpolicy, ?_,
        hall, ?_⟩
      · rw [hcounts', hcounts, hpolicy, Counts.plus_assoc, ← Counts.tally_append]
        rfl
      · rw [List.length_cons]
        omega

/-- Of what has become of stored rows, a first part is accounted for, and
all of it unless the account stops. -/
theorem recordAll_stored (t : Duplicates) (s : Site) {stored : List (Row × Outcome)}
    {raws : List Bytes} (hlength : stored.length = raws.length) :
    ∃ accounted adrift, stored = accounted ++ adrift ∧
      (recordAll t s ((stored.map Prod.snd).zip raws)).2.1.policy = t.policy ∧
      (recordAll t s ((stored.map Prod.snd).zip raws)).2.1.counts
        = t.counts.plus (.tally t.policy (accounted.map Prod.snd)) ∧
      ((recordAll t s ((stored.map Prod.snd).zip raws)).1 = .ok () → adrift = []) ∧
      adrift.length < max 1 stored.length := by
  obtain ⟨done, left, hsplit, hpolicy, hcounts, hdone, hfew⟩ :=
    recordAll_eq t s ((stored.map Prod.snd).zip raws)
  have hmap : (stored.map Prod.snd).length = raws.length := by rw [List.length_map, hlength]
  rw [List.map_fst_zip (Nat.le_of_eq hmap)] at hsplit
  rw [List.length_zip, hmap, Nat.min_self, ← hlength] at hfew
  obtain ⟨accounted, adrift, rfl, rfl, rfl⟩ := List.map_eq_append_iff.mp hsplit
  rw [List.length_map] at hfew
  exact ⟨accounted, adrift, rfl, hpolicy, hcounts,
    fun hok => List.map_eq_nil_iff.mp (hdone hok), hfew⟩

end LocalWriter

/-! ## Storing -/

namespace Storage

/-- A storage that stores a row in its table, or does nothing. -/
theorem insert_course {x : Storage} {t : Table} (hmedium : x.medium = .table t) (ht : t.Indexed)
    (row : Row) (keep : Keep) (d : Directory) :
    (∃ e x', x.insert row keep d = (.error e, x', d) ∧ x'.medium = .table t) ∨
      ∃ outcome t' x', x.insert row keep d = (.ok outcome, x', d) ∧ x'.medium = .table t' ∧
        t'.Indexed ∧ Table.Handles keep t row outcome t' := by
  unfold insert
  dsimp only
  cases x.failures .insert (x.inserts + 1) with
  | some e => exact .inl ⟨e, _, rfl, hmedium⟩
  | none =>
    rw [hmedium]
    obtain ⟨hindexed, hhandles⟩ := Table.insert_handles ht row keep
    exact .inr ⟨_, _, _, rfl, rfl, hindexed, hhandles⟩

/-- **Rows are stored up to the first that the storage fails at.** -/
theorem insertAll_course {x : Storage} {t : Table} (hmedium : x.medium = .table t)
    (ht : t.Indexed) (keep : Keep) (d : Directory) (rows : List Row) :
    ∃ out x' past t', x.insertAll keep d rows = (out, x', d) ∧ x'.medium = .table t' ∧
      t'.Indexed ∧ Table.Course keep t past t' ∧ past.map Prod.fst <+: rows ∧
      (∀ outcomes, out = .ok outcomes → past.map Prod.fst = rows ∧ past.map Prod.snd = outcomes) ∧
      (∀ e, out = .error e → past.length < rows.length) := by
  induction rows generalizing x t with
  | nil =>
    refine ⟨.ok [], x, [], t, rfl, hmedium, ht, .nil t, List.nil_prefix, ?_, ?_⟩
    · rintro _ ⟨⟩
      exact ⟨rfl, rfl⟩
    · rintro _ ⟨⟩
  | cons row rows ih =>
    rw [insertAll]
    rcases insert_course hmedium ht row keep d with
      ⟨e, x₁, hinsert, hmedium₁⟩ | ⟨outcome, t₁, x₁, hinsert, hmedium₁, ht₁, hhandles⟩
    · rw [hinsert]
      refine ⟨.error e, x₁, [], t, rfl, hmedium₁, ht, .nil t, List.nil_prefix, ?_,
        fun _ _ => Nat.succ_pos _⟩
      rintro _ ⟨⟩
    · obtain ⟨out, x', past, t', hall, hmedium', ht', hcourse, hprefix, hok, herror⟩ :=
        ih hmedium₁ ht₁
      rw [hinsert]
      dsimp only
      rw [hall]
      have hprefix' : ((row, outcome) :: past).map Prod.fst <+: row :: rows :=
        List.cons_prefix_cons.mpr ⟨rfl, hprefix⟩
      cases out with
      | error e =>
        refine ⟨_, _, (row, outcome) :: past, t', rfl, hmedium', ht', .cons hhandles hcourse,
          hprefix', ?_, fun _ _ => Nat.succ_lt_succ (herror e rfl)⟩
        rintro _ ⟨⟩
      | ok outcomes =>
        refine ⟨_, _, (row, outcome) :: past, t', rfl, hmedium', ht', .cons hhandles hcourse,
          hprefix', ?_, ?_⟩
        · rintro _ ⟨⟩
          obtain ⟨hrows, houtcomes⟩ := hok outcomes rfl
          exact ⟨congrArg (row :: ·) hrows, congrArg (outcome :: ·) houtcomes⟩
        · rintro _ ⟨⟩

end Storage

/-! ## The ledger of a writer -/

namespace LocalWriter

/-- How many rows a writer stores at a time. -/
def size (w : LocalWriter) : Nat := max 1 (w.batch.getD 1)

theorem size_pos (w : LocalWriter) : 0 < w.size :=
  Nat.lt_of_lt_of_le Nat.one_pos (Nat.le_max_left ..)

/-- What a writer that began over a table has made of the rows that it was
given: some are stored and accounted for, then some are stored and not
accounted for. -/
structure Ledger (start : LocalWriter) (t : Table) (rows : List Row) (w : LocalWriter)
    (accounted adrift : List (Row × Outcome)) : Prop where
  policy : w.duplicates.policy = start.duplicates.policy
  batch : w.batch = start.batch
  table : ∃ t', w.storage.medium = .table t' ∧ t'.Indexed ∧
    Table.Course start.duplicates.keep t (accounted ++ adrift) t'
  given : (accounted ++ adrift).map Prod.fst <+: rows
  counts : w.duplicates.counts = .tally start.duplicates.policy (accounted.map Prod.snd)
  few : adrift.length < start.size

/-- A writer that has accounted for all that is stored, with the other
rows waiting for their batch. -/
structure Level (start : LocalWriter) (t : Table) (rows : List Row) (w : LocalWriter)
    (past : List (Row × Outcome)) : Prop extends Ledger start t rows w past [] where
  waiting : past.map Prod.fst ++ w.pending.map Prod.fst = rows
  unfilled : w.pending.length < start.size

/-- A writer that has just begun. -/
structure Fresh (w : LocalWriter) (t : Table) : Prop where
  medium : w.storage.medium = .table t
  indexed : t.Indexed
  counts : w.duplicates.counts = {}
  pending : w.pending = []
  opened : w.closed = false

theorem Fresh.level {w : LocalWriter} {t : Table} (h : w.Fresh t) : Level w t [] w [] where
  policy := rfl
  batch := rfl
  table := ⟨t, h.medium, h.indexed, .nil t⟩
  given := List.nil_prefix
  counts := by rw [h.counts]; simp [Counts.tally]
  few := w.size_pos
  waiting := by rw [h.pending]; rfl
  unfilled := by rw [h.pending]; exact w.size_pos

section Steps

variable {start w : LocalWriter} {t : Table} {rows : List Row} {past : List (Row × Outcome)}

/-- What a writer has done stays done when more rows are given. -/
theorem Ledger.more {accounted adrift : List (Row × Outcome)}
    (h : Ledger start t rows w accounted adrift) (more : List Row) :
    Ledger start t (rows ++ more) w accounted adrift :=
  { h with given := h.given.trans (List.prefix_append _ _) }

/-- Rows of a batch that have been stored are accounted for, up to where the
account stops. -/
theorem Ledger.account {stored : List (Row × Outcome)} {x : Storage} {t' : Table}
    (h : Ledger start t rows w past []) (hmedium : x.medium = .table t') (hindexed : t'.Indexed)
    (hcourse : Table.Course start.duplicates.keep t (past ++ stored) t')
    (hgiven : (past ++ stored).map Prod.fst <+: rows) {raws : List Bytes}
    (hraws : stored.length = raws.length) (hfilled : stored.length ≤ start.size) (s : Site) :
    ∃ accounted adrift, stored = accounted ++ adrift ∧
      Ledger start t rows
        { w with
          storage := x
          duplicates := (recordAll w.duplicates s ((stored.map Prod.snd).zip raws)).2.1
          slots := w.slots.clear } (past ++ accounted) adrift ∧
      ((recordAll w.duplicates s ((stored.map Prod.snd).zip raws)).1 = .ok () → adrift = []) := by
  obtain ⟨accounted, adrift, rfl, hpolicy, hcounts, hdone, hfew⟩ :=
    recordAll_stored w.duplicates s hraws
  rw [← List.append_assoc] at hcourse hgiven
  refine ⟨accounted, adrift, rfl, ⟨hpolicy.trans h.policy, h.batch, ⟨t', hmedium, hindexed,
    hcourse⟩, hgiven, ?_, ?_⟩, hdone⟩
  · refine hcounts.trans ?_
    rw [h.counts, h.policy, ← Counts.tally_append, ← List.map_append]
  · have hpos := start.size_pos
    omega

/-- **A batch is stored and then accounted for.** If that fails, what was
stored by then and not accounted for is adrift. The rows that wait may be
one batch by now. -/
theorem Ledger.flush (h : Ledger start t rows w past []) (s : Site)
    (hwaiting : past.map Prod.fst ++ w.pending.map Prod.fst = rows)
    (hfilled : w.pending.length ≤ start.size) :
    (w.flush s).2.1.closed = w.closed ∧
      ((w.flush s).1 = .ok () → ∃ past', Level start t rows (w.flush s).2.1 past' ∧
        (w.flush s).2.1.pending = []) ∧
      ∀ e, (w.flush s).1 = .error e →
        ∃ accounted adrift, Ledger start t rows (w.flush s).2.1 accounted adrift := by
  obtain ⟨t', hmedium, hindexed, hcourse⟩ := h.table
  rw [List.append_nil] at hcourse
  rw [flush_eq]
  split
  · next hempty =>
    have hnil : w.pending = [] := List.isEmpty_iff.mp hempty
    refine ⟨rfl, fun _ => ⟨past, { h with waiting := hwaiting, unfilled := ?_ }, hnil⟩, nofun⟩
    rw [hnil]
    exact start.size_pos
  next hsome =>
  obtain ⟨out, x', stored, t'', hinsert, hmedium', hindexed', hcourse', hprefix, hok, herror⟩ :=
    Storage.insertAll_course hmedium hindexed w.duplicates.keep s.directory
      (w.pending.map Prod.fst)
  have hkeep : w.duplicates.keep = start.duplicates.keep := Duplicates.keep_congr h.policy
  rw [hkeep] at hcourse'
  have hall := hcourse.append hcourse'
  have hgiven : (past ++ stored).map Prod.fst <+: rows := by
    rw [← hwaiting, List.map_append]
    exact (List.prefix_append_right_inj _).mpr hprefix
  rw [hinsert]
  cases out with
  | error e =>
    have hfew := herror e rfl
    rw [List.length_map] at hfew
    exact ⟨rfl, nofun, fun _ _ => ⟨past, stored, h.policy, h.batch,
      ⟨t'', hmedium', hindexed', hall⟩, hgiven, h.counts, by omega⟩⟩
  | ok outcomes =>
    obtain ⟨hrows, rfl⟩ := hok outcomes rfl
    have hlength : stored.length = w.pending.length := by
      have hrows' := congrArg List.length hrows
      rwa [List.length_map, List.length_map] at hrows'
    obtain ⟨accounted, adrift, rfl, hledger, hdone⟩ :=
      h.account hmedium' hindexed' hall hgiven (hlength.trans (List.length_map Prod.snd).symm)
        (hlength.symm ▸ hfilled) s
    dsimp only
    generalize recordAll w.duplicates _ _ = recorded at hledger hdone ⊢
    obtain ⟨outcome, duplicates, s'⟩ := recorded
    refine ⟨rfl, fun hsuccess => ?_, fun _ _ => ⟨_, adrift, hledger⟩⟩
    obtain rfl := hdone hsuccess
    refine ⟨past ++ accounted, { hledger with waiting := ?_, unfilled := start.size_pos }, rfl⟩
    rw [List.append_nil] at hrows
    rw [List.map_append, hrows, ← hwaiting]
    exact List.append_nil _

/-- A row that is stored at once is accounted for at once. -/
theorem Level.insertDirect (h : Level start t rows w past) (hpending : w.pending = []) (row : Row)
    (raw : Bytes) (s : Site) :
    (w.insertDirect row raw s).2.1.closed = w.closed ∧
      ∃ past', Ledger start t (rows ++ [row]) (w.insertDirect row raw s).2.1 past' [] ∧
        ((w.insertDirect row raw s).1 = .ok () →
          Level start t (rows ++ [row]) (w.insertDirect row raw s).2.1 past') := by
  obtain ⟨t', hmedium, hindexed, hcourse⟩ := h.table
  have hwaiting := h.waiting
  rw [List.append_nil] at hcourse
  rw [hpending, List.map_nil, List.append_nil] at hwaiting
  have hkeep : w.duplicates.keep = start.duplicates.keep := Duplicates.keep_congr h.policy
  have hpos := start.size_pos
  unfold LocalWriter.insertDirect
  rcases Storage.insert_course hmedium hindexed row w.duplicates.keep s.directory with
    ⟨e, x', hinsert, hmedium'⟩ | ⟨outcome, t'', x', hinsert, hmedium', hindexed', hhandles⟩
  · rw [hinsert]
    refine ⟨rfl, past, ⟨h.policy, h.batch, ⟨t', hmedium', hindexed, ?_⟩, ?_, h.counts, hpos⟩,
      nofun⟩
    · rw [List.append_nil]
      exact hcourse
    · exact h.given.trans (List.prefix_append _ _)
  · rw [hinsert]
    dsimp only
    obtain ⟨hpolicy, hcounts⟩ := w.duplicates.record_eq outcome raw s
    generalize w.duplicates.record outcome raw s = recorded at hpolicy hcounts ⊢
    obtain ⟨result, duplicates, s'⟩ := recorded
    dsimp only at hpolicy hcounts ⊢
    rw [hkeep] at hhandles
    have hledger : Ledger start t (rows ++ [row])
        { w with storage := x', duplicates := duplicates } (past ++ [(row, outcome)]) [] := by
      refine ⟨hpolicy.trans h.policy, h.batch, ⟨t'', hmedium', hindexed', ?_⟩, ?_, ?_, hpos⟩
      · rw [List.append_nil]
        exact hcourse.append (.cons hhandles (.nil t''))
      · rw [List.append_nil, List.map_append, hwaiting]
        exact List.prefix_refl _
      · show duplicates.counts = _
        rw [hcounts, h.counts, h.policy, List.map_append, Counts.tally_append]
        rfl
    refine ⟨rfl, _, hledger, fun _ => { hledger with waiting := ?_, unfilled := ?_ }⟩
    · show _ ++ w.pending.map Prod.fst = _
      rw [hpending, List.map_append, hwaiting]
      exact List.append_nil _
    · show w.pending.length < _
      rw [hpending]
      exact hpos

/-- **What a row does to a level writer**: it stays level, or it fails and
some rows may be adrift. -/
theorem Level.insert (h : Level start t rows w past) (hopen : w.closed = false) (row : Row)
    (raw : Bytes) (s : Site) :
    (w.insert row raw s).2.1.closed = false ∧
      ((w.insert row raw s).1 = .ok () → ∃ past',
        Level start t (rows ++ [row]) (w.insert row raw s).2.1 past') ∧
      ∀ e, (w.insert row raw s).1 = .error e → ∃ accounted adrift,
        Ledger start t (rows ++ [row]) (w.insert row raw s).2.1 accounted adrift := by
  have hunfilled := h.unfilled
  have hsize : start.size = max 1 (w.batch.getD 1) := by rw [size, ← h.batch]
  unfold LocalWriter.insert
  rw [if_neg (Bool.eq_false_iff.mp hopen)]
  cases hbatch : w.batch with
  | none =>
    have hpending : w.pending = [] := by
      rw [hsize, hbatch] at hunfilled
      exact List.eq_nil_of_length_eq_zero (Nat.lt_one_iff.mp hunfilled)
    obtain ⟨hclosed, past', hledger, hlevel⟩ := h.insertDirect hpending row raw s
    exact ⟨hclosed.trans hopen, fun hok => ⟨past', hlevel hok⟩, fun _ _ => ⟨past', [], hledger⟩⟩
  | some batch =>
    rw [hbatch, Option.getD_some] at hsize
    have hwaiting : past.map Prod.fst ++ (w.hold row raw).pending.map Prod.fst
        = rows ++ [row] := by
      rw [pending_hold, List.map_append, ← List.append_assoc, h.waiting]
      rfl
    have hlength : (w.hold row raw).pending.length = w.pending.length + 1 := by
      rw [pending_hold]
      exact List.length_append
    have hledger : Ledger start t (rows ++ [row]) (w.hold row raw) past [] :=
      ⟨h.policy, h.batch, h.table, h.given.trans (List.prefix_append _ _), h.counts, h.few⟩
    dsimp only
    split
    · obtain ⟨hclosed, hok, herror⟩ := hledger.flush s hwaiting (by omega)
      exact ⟨hclosed.trans hopen, fun hsuccess => (hok hsuccess).imp fun _ => And.left, herror⟩
    · next hfew =>
      rw [← length_pending] at hfew
      have hunfilled' : (w.hold row raw).pending.length < start.size := by omega
      exact ⟨hopen, fun _ => ⟨past, { hledger with waiting := hwaiting, unfilled := hunfilled' }⟩,
        nofun⟩

end Steps

/-! ## Giving rows and closing -/

/-- Gives rows with their records, up to the first that fails. -/
def insertEach (w : LocalWriter) (s : Site) :
    List (Row × Bytes) → Except WriterError Unit × LocalWriter × Site
  | [] => (.ok (), w, s)
  | (row, raw) :: rest =>
    match w.insert row raw s with
    | (.error e, w, s) => (.error e, w, s)
    | (.ok (), w, s) => insertEach w s rest

/-- Gives rows with their records and closes the writer, in error mode
after the first failure: of a row, or of closing. The last two parts are
what failed first and the counts that are reported. -/
def deliver (w : LocalWriter) (entries : List (Row × Bytes)) (onError : Bool) (s : Site) :
    LocalWriter × Option WriterError × Except WriterError Counts :=
  match w.insertEach s entries with
  | (.error e, w, s) =>
    match w.close true s with
    | (reported, w, _) => (w, some e, reported)
  | (.ok (), w, s) =>
    match w.close onError s with
    | (.ok counts, w, _) => (w, none, .ok counts)
    | (.error e, w, s) =>
      match w.close true s with
      | (reported, w, _) => (w, some e, reported)

section Deliver

variable {start w : LocalWriter} {t : Table} {rows : List Row} {past : List (Row × Outcome)}

/-- Closing in error mode reports the counts and stores nothing. -/
theorem Ledger.closeOnError {accounted adrift : List (Row × Outcome)}
    (h : Ledger start t rows w accounted adrift) (s : Site) :
    ∃ w' s', w.close true s = (.ok w'.duplicates.counts, w', s') ∧
      Ledger start t rows w' accounted adrift := by
  unfold close
  split
  · exact ⟨w, s, rfl, h⟩
  · exact ⟨_, _, rfl, h.policy, h.batch, h.table, h.given, h.counts, h.few⟩

/-- Finishing stores nothing either. -/
theorem Ledger.finish (h : Ledger start t rows w past []) (s : Site) :
    Ledger start t rows (w.finish s).2.1 past [] ∧
      ∀ counts, (w.finish s).1 = .ok counts → counts = (w.finish s).2.1.duplicates.counts := by
  obtain ⟨t', hmedium, hindexed, hcourse⟩ := h.table
  have hmedium' : (w.storage.finish s.directory).2.1.medium = .table t' := by
    unfold Storage.finish
    dsimp only
    split
    · exact hmedium
    · rw [hmedium]
  unfold LocalWriter.finish
  generalize w.storage.finish s.directory = finished at hmedium'
  obtain ⟨_ | _, x', directory⟩ := finished
  · exact ⟨⟨h.policy, h.batch, ⟨t', hmedium', hindexed, hcourse⟩, h.given, h.counts, h.few⟩, nofun⟩
  · refine ⟨⟨h.policy, h.batch, ⟨t', hmedium', hindexed, hcourse⟩, h.given, h.counts, h.few⟩, ?_⟩
    rintro _ ⟨⟩
    rfl

/-- Closing a level writer: the counts are those of all that is stored, or
it fails and some rows may be adrift. -/
theorem Level.close (h : Level start t rows w past) (s : Site) :
    (∀ counts, (w.close false s).1 = .ok counts → ∃ past',
      counts = (w.close false s).2.1.duplicates.counts ∧
        Ledger start t rows (w.close false s).2.1 past' []) ∧
    ∀ e, (w.close false s).1 = .error e → ∃ accounted adrift,
      Ledger start t rows (w.close false s).2.1 accounted adrift := by
  have hledger : Ledger start t rows { w with closed := true } past [] :=
    ⟨h.policy, h.batch, h.table, h.given, h.counts, h.few⟩
  obtain ⟨-, hok, herror⟩ := hledger.flush s h.waiting (Nat.le_of_lt h.unfilled)
  unfold LocalWriter.close
  split
  · refine ⟨?_, nofun⟩
    rintro _ ⟨⟩
    exact ⟨past, rfl, h.toLedger⟩
  · simp only [Bool.false_eq_true, if_false]
    generalize ({ w with closed := true } : LocalWriter).flush s = flushed at hok herror
    obtain ⟨e | _, w', s'⟩ := flushed
    · exact ⟨nofun, fun _ _ => herror e rfl⟩
    · obtain ⟨past', hlevel, -⟩ := hok rfl
      obtain ⟨hfinish, hcounts⟩ := hlevel.toLedger.finish s'
      exact ⟨fun counts hclosed => ⟨past', hcounts counts hclosed, hfinish⟩,
        fun _ _ => ⟨past', [], hfinish⟩⟩

/-- Rows given one after another, by induction on what is left of them. -/
theorem Level.insertEach (h : Level start t rows w past) (hopen : w.closed = false)
    (entries : List (Row × Bytes)) (s : Site) :
    ((w.insertEach s entries).1 = .ok () → ∃ past',
      Level start t (rows ++ entries.map Prod.fst) (w.insertEach s entries).2.1 past') ∧
    ∀ e, (w.insertEach s entries).1 = .error e → ∃ accounted adrift,
      Ledger start t (rows ++ entries.map Prod.fst) (w.insertEach s entries).2.1 accounted
        adrift := by
  induction entries generalizing w rows past s with
  | nil =>
    rw [List.map_nil, List.append_nil]
    exact ⟨fun _ => ⟨past, h⟩, nofun⟩
  | cons entry entries ih =>
    obtain ⟨row, raw⟩ := entry
    obtain ⟨hclosed, hok, herror⟩ := h.insert hopen row raw s
    rw [LocalWriter.insertEach, List.map_cons, List.append_cons]
    generalize w.insert row raw s = inserted at hclosed hok herror
    obtain ⟨e | _, w', s'⟩ := inserted
    · obtain ⟨accounted, adrift, hledger⟩ := herror e rfl
      exact ⟨nofun, fun _ _ => ⟨accounted, adrift, hledger.more _⟩⟩
    · obtain ⟨past', hlevel⟩ := hok rfl
      exact ih hlevel hclosed s'

/-- What a writer has made of its rows when it has been closed. -/
theorem Fresh.deliver (h : w.Fresh t) (entries : List (Row × Bytes)) (onError : Bool) (s : Site) :
    ∃ accounted adrift,
      Ledger w t (entries.map Prod.fst) (w.deliver entries onError s).1 accounted adrift ∧
        (w.deliver entries onError s).2.2
          = .ok (w.deliver entries onError s).1.duplicates.counts ∧
        ((w.deliver entries onError s).2.1 = none → adrift = []) := by
  obtain ⟨hok, herror⟩ := h.level.insertEach h.opened entries s
  rw [List.nil_append] at hok herror
  unfold LocalWriter.deliver
  generalize w.insertEach s entries = inserted at hok herror
  obtain ⟨e | _, w₁, s₁⟩ := inserted
  · obtain ⟨accounted, adrift, hledger⟩ := herror e rfl
    obtain ⟨w', s', hclose, hledger'⟩ := hledger.closeOnError s₁
    dsimp only
    rw [hclose]
    exact ⟨accounted, adrift, hledger', rfl, nofun⟩
  · obtain ⟨past, hlevel⟩ := hok rfl
    dsimp only
    cases onError with
    | true =>
      obtain ⟨w', s', hclose, hledger'⟩ := hlevel.toLedger.closeOnError s₁
      rw [hclose]
      exact ⟨past, [], hledger', rfl, fun _ => rfl⟩
    | false =>
      obtain ⟨hclosed, hfailed⟩ := hlevel.close s₁
      generalize w₁.close false s₁ = closed at hclosed hfailed
      obtain ⟨e | counts, w₂, s₂⟩ := closed
      · obtain ⟨accounted, adrift, hledger⟩ := hfailed e rfl
        obtain ⟨w', s', hclose, hledger'⟩ := hledger.closeOnError s₂
        dsimp only
        rw [hclose]
        exact ⟨accounted, adrift, hledger', rfl, nofun⟩
      · obtain ⟨past', hcounts, hledger⟩ := hclosed counts rfl
        exact ⟨past', [], hledger, congrArg Except.ok hcounts, fun _ => rfl⟩

/-- The counts of a table's course are the tally of its outcomes: nothing is
left out for a stored row where the new row is to stay. -/
theorem faithful_iff_tally (d : Duplicates) {counts : Counts} {t t' : Table}
    (h : Table.Course d.keep t past t') :
    counts.Faithful d.policy t t' past ↔ counts = .tally d.policy (past.map Prod.snd) := by
  have hlength := h.length_rows
  have hdiscards : (if d.policy = .keepOld then (past.map Prod.snd).countP Outcome.isDiscard else 0)
      = if d.policy = .error then 0 else (past.map Prod.snd).countP Outcome.isDiscard := by
    cases hpolicy : d.policy with
    | keepOld => rfl
    | keepNew =>
      rw [Duplicates.keep, hpolicy] at h
      rw [h.countP_isDiscard]
      rfl
    | error => rfl
  constructor
  · rintro ⟨hgained, hreplaced, hdiscarded⟩
    obtain ⟨inserted, duplicateNew, duplicateOld⟩ := counts
    rw [Counts.tally, Counts.mk.injEq, ← hdiscards]
    exact ⟨Nat.add_left_cancel (hgained.symm.trans hlength), hdiscarded, hreplaced⟩
  · rintro rfl
    exact ⟨hlength, rfl, hdiscards.symm⟩

/-- Counts of a part of what a table did are the counts of all of it where
the rest counts for nothing. -/
theorem faithful_iff (d : Duplicates) {t t' : Table} {accounted adrift : List (Row × Outcome)}
    (h : Table.Course d.keep t (accounted ++ adrift) t') :
    (Counts.tally d.policy (accounted.map Prod.snd)).Faithful d.policy t t' (accounted ++ adrift)
      ↔ Counts.tally d.policy (adrift.map Prod.snd) = {} := by
  rw [faithful_iff_tally d h, List.map_append, Counts.tally_append, Counts.eq_plus_iff]

/-- **Counts and table keep in step but for what is adrift.** Whatever rows
a writer is given and whichever of its calls fail, closing it in the end
reports counts, and what has become of the table is known: the writer has
accounted for a first part of it, and fewer rows than a batch has are
adrift, none if nothing has failed. The counts are those of the table's
whole course exactly if what is adrift counts for nothing. -/
theorem counts_of_deliver (h : w.Fresh t) (entries : List (Row × Bytes)) (onError : Bool)
    (s : Site) :
    ∃ counts t' accounted adrift,
      (w.deliver entries onError s).2.2 = .ok counts ∧
      (w.deliver entries onError s).1.storage.medium = .table t' ∧
      Table.Course w.duplicates.keep t (accounted ++ adrift) t' ∧
      (accounted ++ adrift).map Prod.fst <+: entries.map Prod.fst ∧
      counts = .tally w.duplicates.policy (accounted.map Prod.snd) ∧
      adrift.length < w.size ∧
      ((w.deliver entries onError s).2.1 = none → adrift = []) ∧
      (counts.Faithful w.duplicates.policy t t' (accounted ++ adrift)
        ↔ Counts.tally w.duplicates.policy (adrift.map Prod.snd) = {}) := by
  obtain ⟨accounted, adrift, hledger, hreported, hnone⟩ := h.deliver entries onError s
  obtain ⟨t', hmedium, -, hcourse⟩ := hledger.table
  refine ⟨_, t', accounted, adrift, hreported, hmedium, hcourse, hledger.given, hledger.counts,
    hledger.few, hnone, ?_⟩
  rw [hledger.counts]
  exact faithful_iff w.duplicates hcourse

/-- A writer that stores one row at a time is never wrong. -/
theorem counts_of_deliver_one (h : w.Fresh t) (hsize : w.size = 1) (entries : List (Row × Bytes))
    (onError : Bool) (s : Site) :
    ∃ counts t' past, (w.deliver entries onError s).2.2 = .ok counts ∧
      (w.deliver entries onError s).1.storage.medium = .table t' ∧
      Table.Course w.duplicates.keep t past t' ∧
      counts.Faithful w.duplicates.policy t t' past := by
  obtain ⟨accounted, adrift, hledger, hreported, -⟩ := h.deliver entries onError s
  obtain ⟨t', hmedium, -, hcourse⟩ := hledger.table
  have hfew := hledger.few
  obtain rfl : adrift = [] := List.eq_nil_of_length_eq_zero (by omega)
  refine ⟨_, t', _, hreported, hmedium, hcourse, ?_⟩
  rw [hledger.counts]
  refine (faithful_iff w.duplicates hcourse).mpr ?_
  simp [Counts.tally]

end Deliver

/-- A writer over an empty table with a key, with batches of ten rows. New
rows take the places of stored ones, and one of those is too many. -/
def keyed : LocalWriter where
  storage := { medium := .table { keyColumn := some 0 } }
  duplicates := { policy := .keepNew, limit := .limited 0 }
  batch := some 10

/-- Three rows, the second with the key of the first. -/
def recurring : List (Row × Bytes) :=
  [(.ofValues [.int32 1], Bytes.ascii "1\n"), (.ofValues [.int32 1], Bytes.ascii "1\n"),
    (.ofValues [.int32 2], Bytes.ascii "2\n")]

theorem fresh_keyed : keyed.Fresh { keyColumn := some 0 } :=
  ⟨rfl, Table.indexed_empty _, rfl, rfl, rfl⟩

theorem counts_of_deliver_recurring :
    keyed.Fresh { keyColumn := some 0 } ∧
      ∃ counts t' accounted adrift,
        (keyed.deliver recurring false {}).2.2 = .ok counts ∧
        (keyed.deliver recurring false {}).1.storage.medium = .table t' ∧
        Table.Course .new { keyColumn := some 0 } (accounted ++ adrift) t' ∧
        counts = .tally .keepNew (accounted.map Prod.snd) ∧ adrift.length < 10 := by
  refine ⟨fresh_keyed, ?_⟩
  obtain ⟨counts, t', accounted, adrift, hreported, hmedium, hcourse, -, hcounts, hfew, -, -⟩ :=
    counts_of_deliver fresh_keyed recurring false {}
  exact ⟨counts, t', accounted, adrift, hreported, hmedium, hcourse, hcounts, hfew⟩

/-- The three rows are stored as one batch when the writer is closed, the
account stops at the second, and so the third is stored and not counted:
two rows have been gained, and one is reported. -/
theorem batch_adrift :
    keyed.Fresh { keyColumn := some 0 } ∧
      (keyed.deliver recurring false {}).2
        = (some (.duplicateLimit 1 0), .ok { inserted := 1, duplicateOld := 1 }) ∧
      ∃ t', (keyed.deliver recurring false {}).1.storage.medium = .table t' ∧
        t'.rows = [.ofValues [.int32 1], .ofValues [.int32 2]] ∧
        ∀ past, ¬ Counts.Faithful { inserted := 1, duplicateOld := 1 } .keepNew
          { keyColumn := some 0 } t' past := by
  refine ⟨fresh_keyed, by decide +kernel, _, rfl, by decide +kernel, fun past h => ?_⟩
  exact absurd h.gained (by decide +kernel)

end LocalWriter
end Intake
