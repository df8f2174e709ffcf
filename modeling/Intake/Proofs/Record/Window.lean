import Intake.Proofs.Options.Usable
import Intake.Proofs.Record.Strides
/-!
# Passing over records

Passing over a record finds its end and leaves out the rest of the work.
What that comes to is said here in terms of the records that the reader
would have handed out: passing over some of them leaves a reader that
delivers the others, as they were and with the same end, and where there
are too few it fails, with the number there were or with what the input
breaks off with (`RecordReader.passes`).

A record counts if the input does not end inside it. Only the last
fixed-width record can be such a one, and then the input ends well; that
is why the three ways for passing over to go are all there are.

Nothing is asked of the input, its reads or the sizes of the arena. A
layout must have passed its check: records of no bytes could be passed
over without end and would never be handed out.
-/

namespace Intake

/-- Whether a record is all there: the input does not end inside it. -/
def Record.isWhole (x : Record) : Bool := x.shortfall.isNone

/-! ## What a fill that adds nothing says -/

/-- Where there is room for a byte and none comes, the input has ended. -/
theorem Buffer.Sound.ended_of_fill {b b' : Buffer} (h : b.Sound) {s s' : ByteSource} {record : Nat}
    (hfill : b.fill s record = ⟨.ok [], b', s'⟩) : b'.ended = true := by
  cases h.filling s record with
  | told hended _ htold =>
    cases htold.symm.trans hfill
    exact hended
  | full _ _ _ hfull => cases hfull.symm.trans hfill
  | asked b₁ room _ _ _ _ hpos _ _ hasked =>
    obtain ⟨houtcome, hbuffer, -⟩ := Filled.mk.inj (hasked.symm.trans hfill)
    have hread : (s.read room).1 = .ended :=
      (s.read_eq_ended_iff room).mpr ((ByteSource.outcome_read_eq_nil_iff hpos).mp houtcome)
    rw [← hbuffer, ended_receive, hread]
    exact Bool.or_true _

namespace FixedReader

/-- Less than a record is gathered only at the end of the input, and then it
is all that is pending. -/
theorem gather_sound {r r' : FixedReader} {n : Nat} (hr : r.buffer.Sound)
    (h : r.gather = (.ok n, r')) :
    r'.buffer.Sound ∧
      (n < r.layout.stride → r'.buffer.ended = true ∧ r'.buffer.pending.length = n) := by
  induction hk : r.source.rest.length using Nat.strongRecOn generalizing r with
  | ind k ih =>
    by_cases hheld : r.layout.stride ≤ r.buffer.size
    · rw [gather, if_pos hheld] at h
      cases h
      exact ⟨hr, fun hshort => absurd hshort (Nat.lt_irrefl _)⟩
    · rcases hfill : r.buffer.fill r.source (r.count + 1) with ⟨_ | _ | ⟨x, xs⟩, b, s⟩
      · rw [gather_failed hheld hfill] at h
        cases h
      · obtain ⟨hsound, -⟩ := hr.fill hfill
        rw [gather_ended hheld hfill] at h
        cases h
        exact ⟨hsound, fun _ => ⟨hr.ended_of_fill hfill,
          (Buffer.Counted.size_eq hsound.used_eq).symm⟩⟩
      · obtain ⟨hsound, -⟩ := hr.fill hfill
        rw [gather_filled hheld hfill] at h
        exact ih _ (hk ▸ Buffer.rest_lt_of_fill hfill) (r := { r with buffer := b, source := s })
          hsound h rfl

/-- The end of the input, nothing being pending. -/
theorem next_of_exhausted {r : FixedReader} (hr : r.buffer.Sound) (hstride : 0 < r.layout.stride)
    (hended : r.buffer.ended = true) (hpending : r.buffer.pending = []) :
    ∃ last, r.next = (.ok none, last) := by
  have hsize : r.buffer.size = 0 := by
    rw [Buffer.Counted.size_eq hr.used_eq, hpending, List.length_nil]
  have hgather := gather_ended (r := r) (by omega) (Buffer.fill_of_ended hended _ _)
  rw [hsize] at hgather
  refine ⟨r, ?_⟩
  rw [next, hgather]
  exact if_pos rfl

end FixedReader

/-! ## One record passed over -/

namespace RecordReader

/-- The arena of a reader of fixed-width records is in order, and its
records have bytes. -/
def Sized : RecordReader → Prop
  | fixed r => r.buffer.Sound ∧ 0 < r.layout.stride
  | _ => True

/-- Passes over `left` of `wanted` records. -/
def skipFrom (wanted : Nat) : RecordReader → Nat → Except LoadError Nat × RecordReader
  | delimited r, left => match r.skipFrom wanted left with | (x, r) => (x, .delimited r)
  | fixed r, left => match r.skipFrom wanted left with | (x, r) => (x, .fixed r)
  | rows r, left => match r.skipFrom wanted left with | (x, r) => (x, .rows r)

theorem skip_eq_skipFrom (r : RecordReader) (n : Nat) : r.skip n = r.skipFrom n n := by
  cases r <;> rfl

theorem skipFrom_zero (r : RecordReader) (wanted : Nat) : r.skipFrom wanted 0 = (.ok wanted, r) := by
  cases r <;> rfl

section Step

variable {r r' : RecordReader} {x : Record}

/-- Behind a record that the input ends inside, it has ended. -/
theorem next_sized (hr : r.Sized) (h : r.next = (.ok (some x), r')) :
    r'.Sized ∧ (x.isWhole = false → ∃ last, r'.next = (.ok none, last)) := by
  cases r with
  | delimited r =>
    simp only [next] at h
    rcases hmeasure : r.measure with ⟨_ | _ | n, r₁⟩ <;>
      rw [DelimitedReader.next, hmeasure] at h <;> cases h
    exact ⟨trivial, fun hpart => by cases hpart⟩
  | fixed r =>
    obtain ⟨hsound, hstride⟩ := hr
    simp only [next] at h
    rcases hgather : r.gather with ⟨_ | n, r₁⟩ <;> rw [FixedReader.next, hgather] at h
    · cases h
    obtain ⟨-, -, hheld⟩ := FixedReader.gather_ok hsound.used_eq hgather
    obtain ⟨-, hlayout, -⟩ := FixedReader.gather_le hsound.used_eq hgather
    obtain ⟨hsound₁, hend⟩ := FixedReader.gather_sound hsound hgather
    rw [← hlayout] at hstride hend
    dsimp only at h
    split at h
    · cases h
    split at h
    · next hshort =>
      obtain ⟨hended, hall⟩ := hend hshort
      cases h
      refine ⟨⟨hsound₁.consume hheld, hstride⟩, fun _ => ?_⟩
      obtain ⟨last, hlast⟩ := FixedReader.next_of_exhausted
        (r := { r₁ with buffer := r₁.buffer.consume n, count := r₁.count + 1 })
        (hsound₁.consume hheld) hstride hended
        (by rw [Buffer.pending_consume, ← hall, List.drop_length])
      exact ⟨.fixed last, by rw [next, hlast]⟩
    · cases h
      exact ⟨⟨hsound₁.consume hheld, hstride⟩, fun hpart => by cases hpart⟩
  | rows r =>
    obtain ⟨source, count⟩ := r
    simp only [next, RowReader.next] at h
    rcases source with _ | ⟨_ | row, rest⟩ <;> cases h
    exact ⟨trivial, fun hpart => by cases hpart⟩

/-- **One record passed over is the one that would have come next**, if it
is all there. -/
theorem skipFrom_succ (hr : r.Sized) (wanted left : Nat) :
    match r.next with
    | (.error e, _) => (r.skipFrom wanted (left + 1)).1 = .error e
    | (.ok none, _) =>
      (r.skipFrom wanted (left + 1)).1
        = .error (.skipExceedsInput wanted (wanted - (left + 1)))
    | (.ok (some x), r') =>
      if x.isWhole then r.skipFrom wanted (left + 1) = r'.skipFrom wanted left
      else (r.skipFrom wanted (left + 1)).1
        = .error (.skipExceedsInput wanted (wanted - (left + 1))) := by
  cases r with
  | delimited r =>
    rcases hmeasure : r.measure with ⟨_ | _ | n, r₁⟩ <;>
      simp only [next, skipFrom, DelimitedReader.next, DelimitedReader.skipFrom, hmeasure]
    exact (if_pos rfl).mpr trivial
  | fixed r =>
    obtain ⟨hsound, hstride⟩ := hr
    rcases hgather : r.gather with ⟨_ | n, r₁⟩
    · simp only [next, skipFrom, FixedReader.next, FixedReader.skipFrom, hgather]
    obtain ⟨hle, hlayout, -⟩ := FixedReader.gather_le hsound.used_eq hgather
    rw [← hlayout] at hstride hle
    simp only [next, skipFrom, FixedReader.next, FixedReader.skipFrom, hgather]
    by_cases hnone : n = 0
    · simp only [hnone, if_true, if_pos hstride]
    · by_cases hshort : n < r₁.layout.stride
      · simp only [hnone, hshort, if_true, if_false]
        exact (if_neg Bool.false_ne_true).mpr trivial
      · obtain rfl : n = r₁.layout.stride := by omega
        simp only [hnone, hshort, if_false]
        exact (if_pos rfl).mpr trivial
  | rows r =>
    obtain ⟨source, count⟩ := r
    rcases source with _ | ⟨_ | row, rest⟩ <;> rfl

end Step

/-! ## Records passed over -/

section Delivers

variable {r : RecordReader} {x : Record} {xs : List Record} {stop : Except LoadError Unit}

theorem delivers_nil (h : r.Delivers [] stop) : ∃ last, r.next = (stop.map fun _ => none, last) := by
  obtain ⟨_, last, hyields, hstop⟩ := h
  cases hyields
  exact ⟨last, hstop⟩

theorem delivers_cons (h : r.Delivers (x :: xs) stop) :
    ∃ mid, r.next = (.ok (some x), mid) ∧ mid.Delivers xs stop := by
  obtain ⟨r', last, hyields, hstop⟩ := h
  cases hyields with
  | cons hnext hyields => exact ⟨_, hnext, r', last, hyields, hstop⟩

/-- A record that comes next is the first of those delivered. -/
theorem Delivers.of_next {mid : RecordReader} (h : r.Delivers xs stop)
    (hnext : r.next = (.ok (some x), mid)) : ∃ rest, xs = x :: rest ∧ mid.Delivers rest stop := by
  obtain ⟨r', last, hyields, hstop⟩ := h
  cases hyields with
  | nil =>
    rw [hnext] at hstop
    cases stop <;> cases hstop
  | cons hfirst hyields =>
    cases hfirst.symm.trans hnext
    exact ⟨_, rfl, r', last, hyields, hstop⟩

/-- What passing over `wanted` records fails with where there are only
`found`: with what the input breaks off with, if it does. -/
def shortage (wanted found : Nat) : Except LoadError Unit → LoadError
  | .ok () => .skipExceedsInput wanted found
  | .error e => e

theorem Delivers.skip_nil (hr : r.Sized) (h : r.Delivers [] stop) (wanted left : Nat) :
    (r.skipFrom wanted (left + 1)).1 = .error (shortage wanted (wanted - (left + 1)) stop) := by
  obtain ⟨last, hnext⟩ := delivers_nil h
  have hstep := skipFrom_succ hr wanted left
  rw [hnext] at hstep
  cases stop <;> exact hstep

/-- The first record is passed over, or it is one that the input ends
inside. -/
theorem Delivers.skip_cons (hr : r.Sized) (h : r.Delivers (x :: xs) stop) (wanted left : Nat) :
    (x.isWhole = true ∧ ∃ mid : RecordReader, mid.Sized ∧ mid.Delivers xs stop ∧
        r.skipFrom wanted (left + 1) = mid.skipFrom wanted left) ∨
      (x.isWhole = false ∧ xs = [] ∧ stop = .ok () ∧
        (r.skipFrom wanted (left + 1)).1
          = .error (.skipExceedsInput wanted (wanted - (left + 1)))) := by
  obtain ⟨mid, hnext, hrest⟩ := delivers_cons h
  obtain ⟨hmid, hend⟩ := next_sized hr hnext
  have hstep := skipFrom_succ hr wanted left
  rw [hnext] at hstep
  dsimp only at hstep
  cases hwhole : x.isWhole with
  | true =>
    rw [if_pos hwhole] at hstep
    exact .inl ⟨rfl, mid, hmid, hrest, hstep⟩
  | false =>
    rw [if_neg (by rw [hwhole]; exact Bool.false_ne_true)] at hstep
    obtain ⟨last, hlast⟩ := hend hwhole
    have hnone : mid.Delivers [] (.ok ()) := ⟨mid, last, .nil mid, hlast⟩
    obtain ⟨hnil, hstop⟩ := hrest.unique hnone
    exact .inr ⟨rfl, hnil, hstop, hstep⟩

/-- Enough records: the others are delivered, with the same end. -/
theorem Delivers.skipFrom_ok (hr : r.Sized) (h : r.Delivers xs stop) (wanted : Nat) {left : Nat}
    (henough : left ≤ xs.countP Record.isWhole) :
    ∃ r', r.skipFrom wanted left = (.ok wanted, r') ∧ r'.Delivers (xs.drop left) stop := by
  induction left generalizing r xs with
  | zero => exact ⟨r, r.skipFrom_zero wanted, h⟩
  | succ left ih =>
    cases xs with
    | nil => cases henough
    | cons x xs =>
      rcases h.skip_cons hr wanted left with
        ⟨hwhole, mid, hmid, hrest, hstep⟩ | ⟨hpartial, rfl, -, -⟩
      · rw [List.countP_cons_of_pos hwhole] at henough
        rw [hstep]
        exact ih hmid hrest (by omega)
      · rw [List.countP_cons_of_neg (by rw [hpartial]; exact Bool.false_ne_true)] at henough
        cases henough

/-- Too few records: how many there were, or what the input breaks off
with. -/
theorem Delivers.skipFrom_error (hr : r.Sized) (h : r.Delivers xs stop) {wanted left : Nat}
    (hleft : left ≤ wanted) (hfew : xs.countP Record.isWhole < left) :
    (r.skipFrom wanted left).1
      = .error (shortage wanted (wanted - left + xs.countP Record.isWhole) stop) := by
  induction left generalizing r xs with
  | zero => cases hfew
  | succ left ih =>
    cases xs with
    | nil => exact h.skip_nil hr wanted left
    | cons x xs =>
      rcases h.skip_cons hr wanted left with
        ⟨hwhole, mid, hmid, hrest, hstep⟩ | ⟨hpartial, rfl, rfl, hstep⟩
      · rw [List.countP_cons_of_pos hwhole] at hfew ⊢
        rw [hstep, ih hmid hrest (by omega) (by omega)]
        congr 2
        omega
      · rw [List.countP_cons_of_neg (by rw [hpartial]; exact Bool.false_ne_true)]
        exact hstep

/-- An input that breaks off has no record that it ends inside. -/
theorem Delivers.isWhole_of_error {e : LoadError} (hr : r.Sized) (h : r.Delivers xs (.error e)) :
    xs.countP Record.isWhole = xs.length := by
  induction xs generalizing r with
  | nil => rfl
  | cons x xs ih =>
    rcases h.skip_cons hr 1 0 with ⟨hwhole, mid, hmid, hrest, -⟩ | ⟨-, -, hstop, -⟩
    · rw [List.countP_cons_of_pos hwhole, ih hmid hrest, List.length_cons]
    · cases hstop

/-- **What passing over records comes to depends on these records only.** -/
theorem Delivers.skipFrom_agree {r' : RecordReader} {ys : List Record}
    {stop' : Except LoadError Unit} (hr : r.Sized) (hr' : r'.Sized) (h : r.Delivers xs stop)
    (h' : r'.Delivers ys stop') (wanted : Nat) {left : Nat} (hleft : left ≤ xs.length)
    (hsame : ys.take left = xs.take left) :
    (∃ e, (r.skipFrom wanted left).1 = .error e ∧ (r'.skipFrom wanted left).1 = .error e) ∨
      ∃ mid mid', r.skipFrom wanted left = (.ok wanted, mid) ∧
        r'.skipFrom wanted left = (.ok wanted, mid') ∧ mid.Delivers (xs.drop left) stop ∧
        mid'.Delivers (ys.drop left) stop' := by
  induction left generalizing r r' xs ys with
  | zero => exact .inr ⟨r, r', r.skipFrom_zero wanted, r'.skipFrom_zero wanted, h, h'⟩
  | succ left ih =>
    cases xs with
    | nil => cases hleft
    | cons x xs =>
      cases ys with
      | nil => cases hsame
      | cons y ys =>
        obtain ⟨rfl, htails⟩ := List.cons.inj hsame
        rcases h.skip_cons hr wanted left with
          ⟨hwhole, mid, hmid, hrest, hstep⟩ | ⟨hpartial, -, -, hstep⟩ <;>
        rcases h'.skip_cons hr' wanted left with
          ⟨hwhole', mid', hmid', hrest', hstep'⟩ | ⟨hpartial', -, -, hstep'⟩
        · rw [hstep, hstep']
          exact ih hmid hmid' hrest hrest' (Nat.le_of_succ_le_succ hleft) htails
        · cases hwhole.symm.trans hpartial'
        · cases hpartial.symm.trans hwhole'
        · exact .inl ⟨_, hstep, hstep'⟩

end Delivers

/-! ## The records of a source passed over -/

/-- What passing over comes to for a reader that delivers some records and
then ends. -/
structure Passes (r : RecordReader) (xs : List Record) (stop : Except LoadError Unit) : Prop where
  /-- There are enough records: the others are delivered. -/
  passed : ∀ n, n ≤ xs.countP Record.isWhole →
    ∃ r', r.skip n = (.ok n, r') ∧ r'.Delivers (xs.drop n) stop
  /-- The input ends too early. -/
  exceeded : ∀ n, stop = .ok () → xs.countP Record.isWhole < n →
    (r.skip n).1 = .error (.skipExceedsInput n (xs.countP Record.isWhole))
  /-- The input breaks off too early. -/
  broken : ∀ n e, stop = .error e → xs.length < n → (r.skip n).1 = .error e
  /-- An input that breaks off has no part of a record, so there is no fourth
  way. -/
  whole : ∀ e, stop = .error e → xs.countP Record.isWhole = xs.length

variable {r : RecordReader} {xs : List Record} {stop : Except LoadError Unit}

/-- **Passing over records leaves out these and nothing else.** -/
theorem Delivers.passes (hr : r.Sized) (h : r.Delivers xs stop) : r.Passes xs stop where
  passed := by
    intro n henough
    rw [skip_eq_skipFrom]
    exact h.skipFrom_ok hr n henough
  exceeded := by
    rintro n rfl hfew
    rw [skip_eq_skipFrom, h.skipFrom_error hr (Nat.le_refl n) hfew, Nat.sub_self, Nat.zero_add]
    rfl
  broken := by
    rintro n e rfl hfew
    have hfew' : xs.countP Record.isWhole < n := Nat.lt_of_le_of_lt List.countP_le_length hfew
    rw [skip_eq_skipFrom, h.skipFrom_error hr (Nat.le_refl n) hfew']
    rfl
  whole := by
    rintro e rfl
    exact h.isWhole_of_error hr

theorem Passes.error_of_few (h : r.Passes xs stop) {n : Nat}
    (hfew : xs.countP Record.isWhole < n) : ∃ e, (r.skip n).1 = .error e := by
  cases hstop : stop with
  | ok => exact ⟨_, h.exceeded n hstop hfew⟩
  | error e => exact ⟨e, h.broken n e hstop (h.whole e hstop ▸ hfew)⟩

/-- A reader that starts is one whose records have bytes, if its layout has
passed the check. -/
theorem sized_start {source : Source} {o : Options} {schema : Schema}
    (hlayout : ∀ layout, o.layout = some layout → layout.Accepted)
    (h : start source o schema = .ok r) : r.Sized := by
  cases started_of_start h with
  | delimited => trivial
  | fixed _ fields =>
    refine ⟨Buffer.sound_ofSizes _ _, (hlayout _ ?_).stride_pos⟩
    unfold layoutFor at fields
    split at fields
    · cases fields
    next given hgiven =>
    split at fields
    · cases fields
    split at fields
    · cases fields
    · cases fields
      exact hgiven
  | rows => trivial

end RecordReader
end Intake
