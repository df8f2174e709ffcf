import Intake.Proofs.Record.Window
import Intake.Proofs.Run.Limit
import Intake.Proofs.Run.Trace
/-!
# The window of a run

SKIP and LIMIT cut a window out of the records of a source: those passed
over are not attempted, and after the last that may be attempted the
reader is not asked again. `Loader.windowed` says so for every source,
format and table and for every writer.

The run attempts a first part of the window, in its order (`Halts`). It
attempts all of it and goes well, or the reader fails in front of the end
of the window, or the run is interrupted, or it is stopped over the last
record it attempts. What lies behind a window that ends at the limit
cannot be told from the run at all (`Windowed.blind`): a source that has
other records there, or breaks off there, makes the same run.
-/

namespace Intake
namespace Loader

variable {σ : Type}

/-! ## How the loop ends within a window -/

/-- The first records, as many as are left to attempt. -/
def upTo (left : Option Nat) (xs : List Record) : List Record :=
  match left with
  | none => xs
  | some most => xs.take most

theorem upTo_nil (left : Option Nat) : upTo left [] = [] := by
  cases left with
  | none => rfl
  | some most => exact List.take_nil

theorem upTo_cons {left : Option Nat} (hleft : left ≠ some 0) (x : Record) (xs : List Record) :
    upTo left (x :: xs) = x :: upTo (left.map (· - 1)) xs := by
  cases left with
  | none => rfl
  | some most =>
    cases most with
    | zero => exact absurd rfl hleft
    | succ most => rfl

/-- What a loop over a window has attempted when it ends, and how it ends;
`stop` is how the reader ends. -/
inductive Halts (w : Writer σ) (rules : Rules) (left : Option Nat) (window : List Record)
    (stop : Except LoadError Unit) : List Record → Except LoadError Unit → State σ → Prop where
  /-- The window has been attempted; its end is the limit or the end of the
  input. -/
  | finished {st' : State σ} (ends : left = some window.length ∨ stop = .ok ()) :
    Halts w rules left window stop window (.ok ()) st'
  /-- The window has been attempted, and the reader fails in front of the
  limit. -/
  | unread {st' : State σ} {e : LoadError} (short : left ≠ some window.length)
      (fails : stop = .error e) : Halts w rules left window stop window (.error e) st'
  | interrupted {st' : State σ} {xs : List Record} {kind : Interrupt} (part : xs <+: window)
      (pending : st'.site.token.pending = some kind) :
    Halts w rules left window stop xs (.error (.interrupted kind)) st'
  /-- The last record attempted has stopped the loop. -/
  | stopped {st st' : State σ} {xs : List Record} {x : Record} {e : LoadError}
      (part : xs ++ [x] <+: window) (dealt : Dealt w rules x st (.error e) st') :
    Halts w rules left window stop (xs ++ [x]) (.error e) st'

section Halts

variable {w : Writer σ} {rules : Rules} {left : Option Nat} {window xs : List Record}
  {stop outcome : Except LoadError Unit} {st' : State σ}

/-- Only records of the window are attempted, the first ones. -/
theorem Halts.part (h : Halts w rules left window stop xs outcome st') : xs <+: window := by
  cases h with
  | finished => exact List.prefix_refl _
  | unread => exact List.prefix_refl _
  | interrupted part => exact part
  | stopped part => exact part

/-- One record more at the front. -/
theorem Halts.cons (hleft : left ≠ some 0)
    (h : Halts w rules (left.map (· - 1)) window stop xs outcome st') (x : Record) :
    Halts w rules left (x :: window) stop (x :: xs) outcome st' := by
  have hone : left.map (· - 1) = some window.length ↔ left = some (x :: window).length := by
    cases left with
    | none => exact ⟨nofun, nofun⟩
    | some most =>
      have hmost : most ≠ 0 := fun hzero => hleft (congrArg some hzero)
      simp only [Option.map_some, Option.some.injEq, List.length_cons]
      omega
  cases h with
  | finished ends => exact .finished (ends.imp_left hone.mp)
  | unread short fails => exact .unread (mt hone.mpr short) fails
  | interrupted part pending => exact .interrupted (List.cons_prefix_cons.mpr ⟨rfl, part⟩) pending
  | @stopped _ _ xs last _ part dealt =>
    have hpart : (x :: xs) ++ [last] <+: x :: window := List.cons_prefix_cons.mpr ⟨rfl, part⟩
    exact .stopped hpart dealt

/-- **A loop attempts its window**, by induction on what it does. -/
theorem Trace.halts {reader : RecordReader} {st : State σ} {all : List Record}
    (h : Trace w rules left reader st xs outcome st') (hall : reader.Delivers all stop) :
    Halts w rules left (upTo left all) stop xs outcome st' := by
  induction h generalizing all with
  | spent => exact .finished (.inl rfl)
  | interrupted _ pending => exact .interrupted List.nil_prefix pending
  | ended _ _ next =>
    have hnone : RecordReader.Delivers _ [] (.ok ()) := ⟨_, _, .nil _, next⟩
    obtain ⟨rfl, rfl⟩ := hall.unique hnone
    rw [upTo_nil]
    exact .finished (.inr rfl)
  | @unread _ _ _ _ e hleft _ next =>
    have hnone : RecordReader.Delivers _ [] (.error e) := ⟨_, _, .nil _, next⟩
    obtain ⟨rfl, rfl⟩ := hall.unique hnone
    rw [upTo_nil]
    exact .unread hleft rfl
  | @stopped left _ _ _ _ x _ hleft _ next dealt =>
    obtain ⟨rest, rfl, -⟩ := hall.of_next next
    rw [upTo_cons hleft]
    have hpart : [] ++ [x] <+: x :: upTo (left.map (· - 1)) rest :=
      List.cons_prefix_cons.mpr ⟨rfl, List.nil_prefix⟩
    exact .stopped hpart dealt
  | turn hleft _ next _ _ ih =>
    obtain ⟨rest, rfl, hrest⟩ := hall.of_next next
    rw [upTo_cons hleft]
    exact (ih hrest).cons hleft _

end Halts

/-! ## What lies behind the window -/

/-- **A loop with a limit looks at that many records and no further.** -/
theorem records_congr {w : Writer σ} {rules : Rules} {most : Nat} {reader reader' : RecordReader}
    {all all' : List Record} {stop stop' : Except LoadError Unit} (h : reader.Delivers all stop)
    (h' : reader'.Delivers all' stop') (hmost : most ≤ all.length)
    (hsame : all'.take most = all.take most) {fuel fuel' : Nat} (hfuel : most < fuel)
    (hfuel' : most < fuel') (row : Row) (st : State σ) :
    records w rules fuel (some most) reader row st
      = records w rules fuel' (some most) reader' row st := by
  induction most generalizing reader reader' all all' fuel fuel' row st with
  | zero =>
    obtain ⟨fuel, rfl⟩ := Nat.exists_eq_add_one_of_ne_zero (Nat.ne_zero_of_lt hfuel)
    obtain ⟨fuel', rfl⟩ := Nat.exists_eq_add_one_of_ne_zero (Nat.ne_zero_of_lt hfuel')
    rw [records, records, if_pos rfl, if_pos rfl]
  | succ most ih =>
    obtain ⟨fuel, rfl⟩ := Nat.exists_eq_add_one_of_ne_zero (Nat.ne_zero_of_lt hfuel)
    obtain ⟨fuel', rfl⟩ := Nat.exists_eq_add_one_of_ne_zero (Nat.ne_zero_of_lt hfuel')
    cases all with
    | nil => cases hmost
    | cons x all =>
      cases all' with
      | nil => cases hsame
      | cons y all' =>
        obtain ⟨rfl, htails⟩ := List.cons.inj hsame
        obtain ⟨mid, hnext, hrest⟩ := RecordReader.delivers_cons h
        obtain ⟨mid', hnext', hrest'⟩ := RecordReader.delivers_cons h'
        have hagain := fun row st => ih hrest hrest' (Nat.le_of_succ_le_succ hmost) htails
          (Nat.lt_of_succ_lt_succ hfuel) (Nat.lt_of_succ_lt_succ hfuel') row st
        have hone : (some (most + 1)).map (· - 1) = some most := rfl
        simp only [records, hnext, hnext', hone, hagain]

/-! ## Runs -/

/-- What SKIP and LIMIT make of a source whose records are `all`, ended by
`stop`. -/
structure Windowed (l : Loader) (w : Writer σ) (source : Source) (reader : RecordReader)
    (all : List Record) (stop : Except LoadError Unit) : Prop where
  /-- Passing over records leaves out these and nothing else. -/
  passes : reader.Passes all stop
  /-- Where there are too few, none is attempted. -/
  short : ∀ st : State σ, st.site.token.pending = none →
    all.countP Record.isWhole < l.options.skip →
    ∃ e, (reader.skip l.options.skip).1 = .error e ∧ l.load w source st = (0, .error e, st)
  /-- Where there are enough, those of the window are attempted in order. -/
  attempts : ∀ st : State σ, st.site.token.pending = none →
    l.options.skip ≤ all.countP Record.isWhole →
    ∃ mid xs outcome st', reader.skip l.options.skip = (.ok l.options.skip, mid) ∧
      Trace w l.rules l.options.limit mid st xs outcome st' ∧
      Halts w l.rules l.options.limit (l.attempted (all.drop l.options.skip)) stop xs outcome st' ∧
      l.load w source st = (l.options.skip, outcome, st')
  /-- What a source has behind the last record that may be attempted, and
  how it ends, does not matter. -/
  blind : ∀ most, l.options.limit = some most → l.options.skip + most ≤ all.length →
    ∀ source' reader' all' stop',
      RecordReader.start source' l.options l.schema = .ok reader' →
      reader'.Delivers all' stop' →
      all'.take (l.options.skip + most) = all.take (l.options.skip + most) →
      ∀ writer s, l.run w source' writer s = l.run w source writer s

section Run

variable {l : Loader} {w : Writer σ} {source source' : Source} {reader reader' : RecordReader}
  {all all' : List Record} {stop stop' : Except LoadError Unit}

/-- A source has no more records than a run has turns for. -/
theorem length_lt_bound (hstart : RecordReader.start source l.options l.schema = .ok reader)
    (hall : reader.Delivers all stop) : all.length < bound source := by
  obtain ⟨hcounted, -⟩ := RecordReader.start_ok hstart
  obtain ⟨xs, stop', hxs, hlength⟩ := RecordReader.exists_delivers hcounted
  obtain ⟨rfl, -⟩ := hall.unique hxs
  exact Nat.lt_of_le_of_lt hlength (left_lt_bound hstart)

/-- Two sources with the same records up to the end of the window. -/
theorem load_congr (hlayout : ∀ layout, l.options.layout = some layout → layout.Accepted)
    (hstart : RecordReader.start source l.options l.schema = .ok reader)
    (hall : reader.Delivers all stop)
    (hstart' : RecordReader.start source' l.options l.schema = .ok reader')
    (hall' : reader'.Delivers all' stop') {most : Nat} (hlimit : l.options.limit = some most)
    (hlong : l.options.skip + most ≤ all.length)
    (hsame : all'.take (l.options.skip + most) = all.take (l.options.skip + most))
    (st : State σ) : l.load w source' st = l.load w source st := by
  have hlong' : l.options.skip + most ≤ all'.length := by
    have hlength := congrArg List.length hsame
    rw [List.length_take, List.length_take] at hlength
    omega
  have hfuel := length_lt_bound hstart hall
  have hfuel' := length_lt_bound hstart' hall'
  have hskipped : all'.take l.options.skip = all.take l.options.skip := by
    have htaken := congrArg (List.take l.options.skip) hsame
    rwa [List.take_take, List.take_take, Nat.min_eq_left (Nat.le_add_right _ _)] at htaken
  have hwindow : (all'.drop l.options.skip).take most = (all.drop l.options.skip).take most := by
    have hdropped := congrArg (List.drop l.options.skip) hsame
    rwa [List.drop_take, List.drop_take, Nat.add_sub_cancel_left] at hdropped
  cases hpending : st.site.token.pending with
  | some kind => rw [load_of_pending hstart' hpending, load_of_pending hstart hpending]
  | none =>
    rcases hall.skipFrom_agree (RecordReader.sized_start hlayout hstart)
        (RecordReader.sized_start hlayout hstart') hall' l.options.skip (by omega) hskipped with
      ⟨e, hskip, hskip'⟩ | ⟨mid, mid', hskip, hskip', hrest, hrest'⟩
    · rw [← RecordReader.skip_eq_skipFrom] at hskip hskip'
      rw [load_of_skip_error hstart' hpending hskip', load_of_skip_error hstart hpending hskip]
    · have hmost : most ≤ (all.drop l.options.skip).length := by
        rw [List.length_drop]
        omega
      rw [← RecordReader.skip_eq_skipFrom] at hskip hskip'
      rw [load_of_skip_ok hstart' hpending hskip', load_of_skip_ok hstart hpending hskip, hlimit]
      exact congrArg (Prod.mk _)
        (records_congr hrest hrest' hmost hwindow (by omega) (by omega) _ st).symm

/-- The records of a source, with SKIP and LIMIT. -/
theorem Windowed.of_delivers (w : Writer σ)
    (hlayout : ∀ layout, l.options.layout = some layout → layout.Accepted)
    (hstart : RecordReader.start source l.options l.schema = .ok reader)
    (hall : reader.Delivers all stop) : l.Windowed w source reader all stop := by
  have hpasses := hall.passes (RecordReader.sized_start hlayout hstart)
  refine ⟨hpasses, ?_, ?_, ?_⟩
  · intro st hcalm hfew
    obtain ⟨e, hskip⟩ := hpasses.error_of_few hfew
    exact ⟨e, hskip, load_of_skip_error hstart hcalm hskip⟩
  · intro st hcalm henough
    obtain ⟨mid, hskip, hrest⟩ := hpasses.passed l.options.skip henough
    obtain ⟨xs, outcome, st', htrace, hload⟩ := load_of_skip (w := w) hstart hcalm hskip
    exact ⟨mid, xs, outcome, st', hskip, htrace, htrace.halts hrest, hload⟩
  · intro most hlimit hlong source' reader' all' stop' hstart' hall' hsame writer s
    unfold run
    dsimp only
    rw [load_congr hlayout hstart hall hstart' hall' hlimit hlong hsame]

/-- **SKIP and LIMIT select a window of the records.** The records are those
that a new reader delivers, of which there is one list
(`RecordReader.Delivers.unique`). -/
theorem windowed (l : Loader) (w : Writer σ)
    (hlayout : ∀ layout, l.options.layout = some layout → layout.Accepted)
    (hstart : RecordReader.start source l.options l.schema = .ok reader) :
    ∃ all stop, reader.Delivers all stop ∧ l.Windowed w source reader all stop := by
  obtain ⟨hcounted, -⟩ := RecordReader.start_ok hstart
  obtain ⟨all, stop, hall, -⟩ := RecordReader.exists_delivers hcounted
  exact ⟨all, stop, hall, .of_delivers w hlayout hstart hall⟩

end Run

/-! ## A load of one record -/

/-- A load of one record of two letters, after one that is passed over. -/
def pairs : Loader where
  options :=
    { format := .fixed
      layout := some ⟨[{ kind := .char, offset := 0, length := 2 }], 2⟩
      skip := 1
      limit := some 1 }
  schema := ⟨[{ name := "a", type := .text }]⟩

/-- Two records and a part of one. -/
def twoAndPart : List Record :=
  [⟨1, Bytes.ascii "aa", [⟨Bytes.ascii "aa", false⟩], none⟩,
    ⟨2, Bytes.ascii "bb", [⟨Bytes.ascii "bb", false⟩], none⟩,
    ⟨3, Bytes.ascii "c", [], some ⟨1, 2⟩⟩]

theorem windowed_pairs :
    (∀ layout, pairs.options.layout = some layout → layout.Accepted) ∧
      ∃ reader, RecordReader.start (.bytes { rest := Bytes.ascii "aabbc" }) pairs.options
          pairs.schema = .ok reader ∧
        reader.Delivers twoAndPart (.ok ()) ∧
        pairs.Windowed LocalWriter.writer (.bytes { rest := Bytes.ascii "aabbc" }) reader
          twoAndPart (.ok ()) := by
  have hlayout : ∀ layout, pairs.options.layout = some layout → layout.Accepted := by
    rintro _ ⟨⟩
    exact ⟨[{ kind := .char, offset := 0, length := 2 }], none, by decide +kernel⟩
  have hstart : RecordReader.start (.bytes { rest := Bytes.ascii "aabbc" }) pairs.options
      pairs.schema = .ok (.fixed (.start { rest := Bytes.ascii "aabbc" }
        ⟨[{ kind := .char, offset := 0, length := 2 }], 2⟩ false 65536 1073741824)) := rfl
  obtain ⟨all, stop, hall, hwindowed⟩ := windowed pairs LocalWriter.writer hlayout hstart
  have hdelivers : RecordReader.Delivers (.fixed (.start { rest := Bytes.ascii "aabbc" }
      ⟨[{ kind := .char, offset := 0, length := 2 }], 2⟩ false 65536 1073741824)) twoAndPart
      (.ok ()) := by
    refine ⟨?last, ?final, ?records, ?stop⟩
    case records =>
      repeat
        apply RecordReader.Yields.cons
        · with_unfolding_all rfl
      exact .nil _
    case stop => with_unfolding_all rfl
  obtain ⟨rfl, rfl⟩ := hall.unique hdelivers
  exact ⟨hlayout, _, hstart, hall, hwindowed⟩

end Loader
end Intake
