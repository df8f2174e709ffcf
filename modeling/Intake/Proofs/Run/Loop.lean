import Mathlib.Data.List.Induction
import Intake.Proofs.Conversion.Attempt
import Intake.Proofs.Record.Stream
import Intake.Proofs.Run.Account
import Intake.Proofs.Writer.Course
import Intake.Proofs.Writer.Steady
import Intake.Run.Loader
/-!
# The loop of a run

What the loop over the records comes to where nothing goes wrong but
records (`Loader.Undisturbed`): the catalog only refuses values, the
writer takes every row, the file of rejected records can be opened and
nothing else writes to it.

One step is one record: an accepted one goes to the writer
(`Midway.accept`), a rejected one to the file (`Midway.reject`). What a
step keeps is that the records so far are all accounted for (`Midway`),
so the loop either deals with everything that may be attempted
(`Midway.whole`) or ends at the first record that is one too many
(`Midway.excess`). Nothing is said about a loop whose input breaks off
before that, or that is asked to stop.
-/

namespace Intake
namespace Loader

variable {σ : Type} (l : Loader)

/-- The records that a run attempts, of all that its reader has. -/
def attempted (xs : List Record) : List Record :=
  match l.options.limit with
  | none => xs
  | some most => xs.take most

/-- Of some records no more are rejected than the run puts up with. -/
def Within (xs : List Record) : Prop :=
  ∀ most, l.options.parseErrors = .limited most → (l.rules.rejectedBytes xs).length ≤ most

/-- A run in which nothing goes wrong but records: what its values are
checked by only refuses them, its file of rejected records can be opened,
its writer takes every row, and neither the writer nor the observers touch
that file. -/
structure Undisturbed (w : Writer σ) (accepting : σ → Prop) (path name : String) (s : Site) :
    Prop where
  catalog : l.catalog.Mild
  badFile : l.options.parseBadFile = some path
  opens : (s.directory.openToAppend path).1 = .ok name
  observers : l.observers.Spares name s
  writer : w.Steady name s accepting
  calm : s.token.pending = none

/-- The observers of a run leave a file alone if the caller's does and the
log file, where there is one, is another. -/
theorem observers_spares {name : String} {s : Site} (hobserver : l.observer.Spares name s)
    (hlog : ∀ path, l.options.logFile = some path → (s.directory.openToAppend path).1 ≠ .ok name) :
    l.observers.Spares name s := by
  unfold observers
  split
  · next path hpath =>
    refine Observer.spares_all fun o ho => ?_
    rcases List.mem_cons.mp ho with rfl | ho
    · exact hobserver
    · rw [List.mem_singleton.mp ho]
      exact Observer.spares_file (hlog path hpath)
  · exact hobserver

/-- A run that started at a site and has accounted for some records. -/
structure Accounted (path name : String) (s : Site) (xs : List Record)
    (st : State (σ × List Call)) : Prop where
  beside : s.Alongside st.site
  kept : st.rejects.Keeps l.options.parseErrors path name (s.directory.bytesAt name) st.site
    (l.rules.rejectedBytes xs)

/-- Its writer has also been given those that are accepted, and takes
more. -/
structure Midway (accepting : σ → Prop) (path name : String) (s : Site) (xs : List Record)
    (st : State (σ × List Call)) : Prop extends l.Accounted path name s xs st where
  accepting : accepting st.writer.1
  calls : st.writer.2 = Call.taken (l.rules.acceptedRows xs)
  observer : st.rejects.observer = l.observers

/-! ## Counting to the limit -/

section Within

variable {l}

theorem exceededBy_eq_false {xs : List Record} (h : l.Within xs) :
    l.options.parseErrors.exceededBy (l.rules.rejectedBytes xs).length = false := by
  unfold Limit.exceededBy
  split
  · next most hlimit => exact decide_eq_false (Nat.not_lt.mpr (h most hlimit))
  · rfl

theorem Within.left {xs ys : List Record} (h : l.Within (xs ++ ys)) : l.Within xs :=
  fun most hlimit => Nat.le_trans (l.rules.length_rejectedBytes_append xs ys) (h most hlimit)

/-- Of too many rejected records one is the first that is too many. -/
theorem exists_excess {most : Nat} {xs : List Record}
    (h : most < (l.rules.rejectedBytes xs).length) :
    ∃ before x after, xs = before ++ x :: after ∧
      (l.rules.rejectedBytes before).length = most ∧ l.rules.accepts x = false := by
  induction xs using List.reverseRecOn with
  | nil => cases h
  | append_singleton xs x ih =>
    by_cases hearlier : most < (l.rules.rejectedBytes xs).length
    · obtain ⟨before, y, after, rfl, hcount, hy⟩ := ih hearlier
      exact ⟨before, y, after ++ [x], List.append_assoc .., hcount, hy⟩
    · rw [Rules.rejectedBytes_concat] at h
      cases hx : l.rules.accepts x with
      | true =>
        rw [hx, if_pos rfl, List.append_nil] at h
        exact absurd h hearlier
      | false =>
        rw [hx, if_neg Bool.false_ne_true, List.length_append, List.length_singleton] at h
        exact ⟨xs, x, [], rfl, by omega, hx⟩

end Within

/-! ## One record -/

section Step

variable {l} {w : Writer σ} {accepting : σ → Prop} {path name : String} {s : Site}
  {xs : List Record} {st : State (σ × List Call)}

/-- Nothing has happened yet. -/
theorem Undisturbed.start (hl : l.Undisturbed w accepting path name s) {writer : σ}
    (hwriter : accepting writer) :
    l.Midway accepting path name s []
      ⟨(writer, []), l.rejects, l.observers (.started l.context) s⟩ := by
  have hspares := hl.observers (.started l.context) s (.refl s)
  refine ⟨⟨hspares.toAlongside, rfl, rfl, ?_⟩, hwriter, rfl, rfl⟩
  exact ⟨hl.badFile, hspares.directory.openToAppend_ok hl.opens, .inl ⟨rfl, rfl⟩,
    congrArg (· ++ []) hspares.bytes⟩

variable {reader reader' : RecordReader} {x : Record} {left : Option Nat} {row : Row}

/-- A turn of the loop in which there is a record. -/
theorem records_next {rules : Rules} (hleft : left ≠ some 0)
    (hcalm : st.site.token.pending = none) (hnext : reader.next = (.ok (some x), reader'))
    (hrequests : (rules.attempt x row).requests = []) (fuel : Nat) :
    records w.noting rules (fuel + 1) left reader row st
      = match st.rejects.absorb x.number x.raw (rules.attempt x row).outcome st.site with
        | (.error e, rejects, site) => (.error e, { st with rejects := rejects, site := site })
        | (.ok false, rejects, site) =>
          records w.noting rules fuel (left.map (· - 1)) reader' (rules.attempt x row).row
            { st with rejects := rejects, site := site }
        | (.ok true, rejects, site) =>
          match w.noting.insert st.writer (rules.attempt x row).row x.raw site with
          | (.error e, writer, site) => (.error (.writer e), ⟨writer, rejects, site⟩)
          | (.ok (), writer, site) =>
            records w.noting rules fuel (left.map (· - 1)) reader' (rules.attempt x row).row
              ⟨writer, rejects, site⟩ := by
  rw [records, if_neg hleft, hcalm]
  dsimp only
  rw [hnext]
  dsimp only
  rw [hrequests, show st.site.request [] = st.site from rfl]
  rcases st.rejects.absorb x.number x.raw (rules.attempt x row).outcome st.site with
    ⟨e | _ | _, rejects, site⟩
  · rfl
  · rfl
  · dsimp only
    rcases w.noting.insert st.writer (rules.attempt x row).row x.raw site with ⟨e | _, writer, site⟩
    · rfl
    · rfl

/-- A record that is accepted goes to the writer. -/
theorem Midway.accept (h : l.Midway accepting path name s xs st)
    (hl : l.Undisturbed w accepting path name s) (hnext : reader.next = (.ok (some x), reader'))
    (hleft : left ≠ some 0) (hrow : row.Shaped l.schema.width)
    (hx : l.rules.accepts x = true) (fuel : Nat) :
    ∃ row' st', records w.noting l.rules (fuel + 1) left reader row st
        = records w.noting l.rules fuel (left.map (· - 1)) reader' row' st' ∧
      row'.Shaped l.schema.width ∧ l.Midway accepting path name s (xs ++ [x]) st' := by
  obtain ⟨houtcome, -, hsame, hshaped, -⟩ := l.rules.attempt_of_shaped x hrow
  obtain ⟨hrequests, -⟩ := l.rules.attempt_of_mild hl.catalog x row
  have hcalm : st.site.token.pending = none := h.beside.token ▸ hl.calm
  have hok : (l.rules.attempt x row).outcome = .ok () :=
    houtcome.trans (l.rules.outcome_of_accepts hx)
  obtain ⟨writer, site, hinsert, haccepting, hspares⟩ :=
    hl.writer.insert h.accepting h.beside (l.rules.attempt x row).row x.raw
  have hnoted := Writer.noting_insert (x := st.writer) hinsert
  refine ⟨(l.rules.attempt x row).row,
    ⟨(writer, st.writer.2 ++ [.insert ((l.rules.attempt x row).row, x.raw) (.ok ())]),
      st.rejects, site⟩, ?_, hshaped, ⟨h.beside.trans hspares.toAlongside, ?_⟩, haccepting, ?_,
    h.observer⟩
  · rw [records_next hleft hcalm hnext hrequests, hok]
    simp only [Rejects.absorb]
    rw [hnoted]
  · rw [Rules.rejectedBytes_concat, if_pos hx, List.append_nil]
    exact h.kept.of_spares hspares
  · rw [Rules.acceptedRows_concat, if_pos hx, Call.taken_append, ← h.calls, ← hsame hok]
    rfl

/-- A record that is rejected goes to the file, and ends the run if it is
one too many. -/
theorem Midway.reject (h : l.Midway accepting path name s xs st)
    (hl : l.Undisturbed w accepting path name s) (hnext : reader.next = (.ok (some x), reader'))
    (hleft : left ≠ some 0) (hrow : row.Shaped l.schema.width)
    (hx : l.rules.accepts x = false) (fuel : Nat) :
    ∃ row' st', records w.noting l.rules (fuel + 1) left reader row st
        = (if l.options.parseErrors.exceededBy ((l.rules.rejectedBytes xs).length + 1) then
            (.error (.parseErrorLimit ((l.rules.rejectedBytes xs).length + 1)
              l.options.parseErrors.number), st')
          else records w.noting l.rules fuel (left.map (· - 1)) reader' row' st') ∧
      row'.Shaped l.schema.width ∧ l.Midway accepting path name s (xs ++ [x]) st' := by
  obtain ⟨houtcome, -, -, hshaped, -⟩ := l.rules.attempt_of_shaped x hrow
  obtain ⟨hrequests, hrejected⟩ := l.rules.attempt_of_mild hl.catalog x row
  have hcalm : st.site.token.pending = none := h.beside.token ▸ hl.calm
  obtain ⟨rejection, hrejection⟩ : ∃ rejection, (l.rules.attempt x row).outcome
      = .error (.rejected rejection) := by
    obtain ⟨e, he⟩ := l.rules.outcome_of_not_accepts hx
    obtain ⟨rejection, rfl⟩ := hrejected e (houtcome.trans he)
    exact ⟨rejection, houtcome.trans he⟩
  obtain ⟨rejects, site, hreject, hkept, hbeside, hobserver⟩ :=
    h.kept.reject (h.observer ▸ hl.observers.alongside h.beside) x.number x.raw rejection
  refine ⟨(l.rules.attempt x row).row, { st with rejects := rejects, site := site }, ?_, hshaped,
    ⟨h.beside.trans hbeside, ?_⟩, h.accepting, ?_, hobserver.trans h.observer⟩
  · rw [records_next hleft hcalm hnext hrequests, hrejection]
    simp only [Rejects.absorb]
    rw [hreject]
    cases l.options.parseErrors.exceededBy ((l.rules.rejectedBytes xs).length + 1) <;> rfl
  · rw [Rules.rejectedBytes_concat, if_neg (Bool.eq_false_iff.mp hx)]
    exact hkept
  · rw [Rules.acceptedRows_concat, if_neg (Bool.eq_false_iff.mp hx), List.append_nil]
    exact h.calls

/-- A record after which no more are rejected than the run puts up with. -/
theorem Midway.step (h : l.Midway accepting path name s xs st)
    (hl : l.Undisturbed w accepting path name s) (hnext : reader.next = (.ok (some x), reader'))
    (hleft : left ≠ some 0) (hrow : row.Shaped l.schema.width) (hwithin : l.Within (xs ++ [x]))
    (fuel : Nat) :
    ∃ row' st', records w.noting l.rules (fuel + 1) left reader row st
        = records w.noting l.rules fuel (left.map (· - 1)) reader' row' st' ∧
      row'.Shaped l.schema.width ∧ l.Midway accepting path name s (xs ++ [x]) st' := by
  cases hx : l.rules.accepts x with
  | true => exact h.accept hl hnext hleft hrow hx fuel
  | false =>
    obtain ⟨row', st', hrecords, hshaped, hmidway⟩ := h.reject hl hnext hleft hrow hx fuel
    have hfew := exceededBy_eq_false hwithin
    rw [Rules.rejectedBytes_concat, if_neg (Bool.eq_false_iff.mp hx), List.length_append,
      List.length_singleton] at hfew
    rw [hfew, if_neg Bool.false_ne_true] at hrecords
    exact ⟨row', st', hrecords, hshaped, hmidway⟩

/-! ## Many records -/

/-- **Up to the limit a run deals with one record after another.** -/
theorem Midway.steps {ys : List Record} (h : l.Midway accepting path name s xs st)
    (hl : l.Undisturbed w accepting path name s) (hyields : reader.Yields ys reader')
    (hleft : ∀ most, left = some most → ys.length ≤ most) (hrow : row.Shaped l.schema.width)
    (hwithin : l.Within (xs ++ ys)) (fuel : Nat) :
    ∃ row' st', records w.noting l.rules (ys.length + fuel) left reader row st
        = records w.noting l.rules fuel (left.map (· - ys.length)) reader' row' st' ∧
      row'.Shaped l.schema.width ∧ l.Midway accepting path name s (xs ++ ys) st' := by
  induction hyields generalizing xs st left row with
  | nil reader =>
    refine ⟨row, st, ?_, hrow, (List.append_nil xs).symm ▸ h⟩
    rw [List.length_nil, Nat.zero_add]
    cases left <;> rfl
  | @cons reader mid reader' x ys hnext _ ih =>
    rw [List.append_cons] at hwithin ⊢
    have hsome : left ≠ some 0 := by
      rintro rfl
      exact absurd (hleft 0 rfl) (Nat.not_succ_le_zero _)
    obtain ⟨row₁, st₁, hfirst, hrow₁, h₁⟩ :=
      h.step hl hnext hsome hrow hwithin.left (ys.length + fuel)
    have hleft₁ : ∀ most, left.map (· - 1) = some most → ys.length ≤ most := by
      intro most hmost
      obtain ⟨n, rfl, rfl⟩ := Option.map_eq_some_iff.mp hmost
      have hn := hleft n rfl
      rw [List.length_cons] at hn
      omega
    obtain ⟨row₂, st₂, hrest, hrow₂, h₂⟩ := ih h₁ hleft₁ hrow₁ hwithin
    refine ⟨row₂, st₂, ?_, hrow₂, h₂⟩
    rw [List.length_cons, Nat.add_right_comm, hfirst, hrest, Option.map_map]
    congr 2
    funext n
    show n - 1 - ys.length = n - (ys.length + 1)
    omega

/-! ## The end of the loop -/

/-- What is attempted comes first, and is all unless there is a limit. -/
theorem attempted_append (xs : List Record) :
    ∃ rest, xs = l.attempted xs ++ rest ∧
      (∀ most, l.options.limit = some most → (l.attempted xs).length ≤ most) ∧
      (rest ≠ [] → l.options.limit = some (l.attempted xs).length) := by
  unfold attempted
  cases l.options.limit with
  | none => exact ⟨[], (List.append_nil xs).symm, nofun, fun h => absurd rfl h⟩
  | some most =>
    refine ⟨xs.drop most, (List.take_append_drop most xs).symm, ?_, fun h => ?_⟩
    · rintro _ ⟨⟩
      exact List.length_take_le most xs
    · dsimp only
      rw [List.length_take, Nat.min_eq_left]
      exact Nat.le_of_not_le fun hle => h (List.drop_eq_nil_of_le hle)

/-- A turn of the loop in which nothing is left to be attempted. -/
theorem records_end {rules : Rules} (hcalm : st.site.token.pending = none)
    (h : left = some 0 ∨ reader.next = (.ok none, reader')) (fuel : Nat) :
    records w.noting rules (fuel + 1) left reader row st = (.ok (), st) := by
  rw [records]
  by_cases hleft : left = some 0
  · rw [if_pos hleft]
  · rw [if_neg hleft, hcalm, h.resolve_left hleft]

variable {stop : Except LoadError Unit}

/-- No more are rejected than the run puts up with: it comes to the end. -/
theorem Midway.whole {st : State (σ × List Call)} (h : l.Midway accepting path name s [] st)
    (hl : l.Undisturbed w accepting path name s) (hdelivers : reader.Delivers xs stop)
    (hrow : row.Shaped l.schema.width) (hwithin : l.Within (l.attempted xs))
    (hends : stop = .ok () ∨ ∃ most, l.options.limit = some most ∧ most ≤ xs.length)
    {fuel : Nat} (hfuel : xs.length < fuel) :
    ∃ st', records w.noting l.rules fuel l.options.limit reader row st = (.ok (), st') ∧
      l.Midway accepting path name s (l.attempted xs) st' := by
  obtain ⟨rest, hxs, hleft, hmore⟩ := attempted_append (l := l) xs
  obtain ⟨end', last, hyields, hstop⟩ := hdelivers
  rw [hxs] at hyields
  obtain ⟨mid, hfirst, hrest⟩ := hyields.split
  have hlength : xs.length = (l.attempted xs).length + rest.length := by
    rw [← List.length_append, ← hxs]
  obtain ⟨k, rfl⟩ : ∃ k, fuel = (l.attempted xs).length + (k + 1) :=
    ⟨fuel - (l.attempted xs).length - 1, by omega⟩
  obtain ⟨row', st', hrecords, -, hmidway⟩ := h.steps hl hfirst hleft hrow hwithin (k + 1)
  -- Either the input or what may be attempted has come to its end.
  have hend : l.options.limit.map (· - (l.attempted xs).length) = some 0 ∨
      mid.next = (.ok none, last) := by
    have hspent : l.options.limit = some (l.attempted xs).length →
        l.options.limit.map (· - (l.attempted xs).length) = some 0 := by
      intro hlimit
      rw [hlimit, Option.map_some, Nat.sub_self]
    by_cases hempty : rest = []
    · subst hempty
      cases hrest
      rcases hends with rfl | ⟨most, hmost, hle⟩
      · exact .inr hstop
      · have hcap := hleft most hmost
        rw [List.length_nil, Nat.add_zero] at hlength
        exact .inl (hspent (hmost.trans (congrArg some (by omega))))
    · exact .inl (hspent (hmore hempty))
  exact ⟨st', hrecords.trans (records_end (hmidway.beside.token ▸ hl.calm) hend k), hmidway⟩

/-- More are rejected: it ends at the first that is too many. -/
theorem Midway.excess {st : State (σ × List Call)} (h : l.Midway accepting path name s [] st)
    (hl : l.Undisturbed w accepting path name s) (hdelivers : reader.Delivers xs stop)
    (hrow : row.Shaped l.schema.width) {most : Nat} (hlimit : l.options.parseErrors = .limited most)
    (hmore : most < (l.rules.rejectedBytes (l.attempted xs)).length)
    {fuel : Nat} (hfuel : xs.length < fuel) :
    ∃ before x after st', l.attempted xs = before ++ x :: after ∧
      (l.rules.rejectedBytes before).length = most ∧ l.rules.accepts x = false ∧
      records w.noting l.rules fuel l.options.limit reader row st
        = (.error (.parseErrorLimit (most + 1) most), st') ∧
      l.Midway accepting path name s (before ++ [x]) st' := by
  obtain ⟨rest, hxs, hleft, -⟩ := attempted_append (l := l) xs
  obtain ⟨before, x, after, hattempted, hcount, hx⟩ := exists_excess hmore
  obtain ⟨end', last, hyields, -⟩ := hdelivers
  rw [hxs, hattempted, List.append_assoc] at hyields
  obtain ⟨mid, hfirst, hrest⟩ := hyields.split
  have hlength := congrArg List.length hxs
  rw [hattempted, List.length_append, List.length_append, List.length_cons] at hlength
  obtain ⟨k, rfl⟩ : ∃ k, fuel = before.length + (k + 1) :=
    ⟨fuel - before.length - 1, by omega⟩
  have hroom : ∀ n, l.options.limit = some n → before.length < n := by
    intro n hn
    have := hleft n hn
    rw [hattempted, List.length_append, List.length_cons] at this
    omega
  have hwithin : l.Within before := by
    intro n hn
    rw [hlimit] at hn
    cases hn
    exact Nat.le_of_eq hcount
  obtain ⟨row', st', hrecords, hrow', hmidway⟩ :=
    h.steps hl hfirst (fun n hn => Nat.le_of_lt (hroom n hn)) hrow hwithin (k + 1)
  rw [List.nil_append] at hmidway
  have hsome : l.options.limit.map (· - before.length) ≠ some 0 := by
    intro hzero
    obtain ⟨n, hn, hsub⟩ := Option.map_eq_some_iff.mp hzero
    have := hroom n hn
    omega
  cases hrest with
  | cons hnext _ =>
    obtain ⟨row₁, st₁, hlast, -, hmidway₁⟩ := hmidway.reject hl hnext hsome hrow' hx k
    have hover : (Limit.limited most).exceededBy (most + 1) = true :=
      decide_eq_true (Nat.lt_succ_self most)
    rw [hcount, hlimit, if_pos hover] at hlast
    exact ⟨before, x, after, st₁, hattempted, hcount, hx, hrecords.trans hlast, hmidway₁⟩

end Step
end Loader
end Intake
