import Intake.Proofs.Record.Strides
/-!
# Reading records again

Records that a reader has handed out can be put one after another, some
of them left out, and given to a new reader of the same options: it hands
out the same records, counted afresh (`RecordReader.delivers_again`). The
sizes of the new reader's reads do not matter, and nor does what stood
between the records at first.

Two kinds of records do not stand this: delimited ones whose line feed
stands behind an escape, and fixed-width ones that the input ended inside.
For delimited records nothing else is in the way, and the first kind
always is (`RecordReader.delivers_again_iff`).

What a reader hands out depends on its manner only, which neither reading
nor passing over records changes (`next_manner`, `skip_manner`).
-/

namespace Intake

/-- How a reader makes records of its input. -/
inductive Manner where
  | delimited (d : Dialect) (forced : List Bool) (limit : Nat)
  | fixed (layout : Layout) (preserveBlanks : Bool)
  | rows

namespace Manner

/-- What is known of a record that is made in a manner. -/
def Makes : Manner → Record → Prop
  | delimited d forced limit, x => x.Delimited d forced limit
  | fixed layout preserveBlanks, x => x.shortfall = none → x.Fixed layout preserveBlanks
  | rows, _ => True

/-- The bytes of a record are enough to make it again. -/
def Repeats : Manner → Record → Prop
  | delimited d _ _, x => ¬ d.Dangling x.raw
  | fixed _ _, x => x.shortfall = none
  | rows, _ => False

end Manner

namespace RecordReader

/-- The manner of a reader. -/
def manner : RecordReader → Manner
  | delimited r => .delimited r.dialect r.forced r.buffer.max
  | fixed r => .fixed r.layout r.preserveBlanks
  | rows _ => .rows

/-- The arena of a reader, if it has one, is in order. -/
def InOrder : RecordReader → Prop
  | delimited r => r.buffer.Sound
  | fixed r => r.buffer.Counted
  | rows _ => True

/-- A reader that has read nothing yet of some bytes. -/
def Before (bs : Bytes) : RecordReader → Prop
  | delimited r => r.Ready ∧ r.unread = bs ∧ r.count = 0
  | fixed r => r.Ready ∧ r.unread = bs ∧ r.count = 0
  | rows _ => False

section Manner

variable {r r' : RecordReader} {x : Record} {xs : List Record} {n k : Nat}

/-- A record is made in the manner of its reader. -/
theorem next_manner (hr : r.InOrder) (h : r.next = (.ok (some x), r')) :
    r.manner.Makes x ∧ r'.InOrder ∧ r'.manner = r.manner := by
  cases r with
  | delimited r =>
    simp only [next] at h
    rcases hnext : r.next with ⟨outcome, r₁⟩
    rw [hnext] at h
    cases h
    obtain ⟨hmakes, hsound, hdialect, hforced, hmax⟩ := DelimitedReader.next_some hr hnext
    refine ⟨hmakes, hsound, ?_⟩
    rw [manner, manner, hdialect, hforced, hmax]
  | fixed r =>
    have hcounted := (next_record (r := .fixed r) hr h).1
    simp only [next] at h
    rcases hnext : r.next with ⟨outcome, r₁⟩
    rw [hnext] at h
    cases h
    obtain ⟨hmakes, hlayout, hblanks⟩ := FixedReader.next_some hr hnext
    refine ⟨hmakes, hcounted, ?_⟩
    rw [manner, manner, hlayout, hblanks]
  | rows r =>
    obtain ⟨-, rfl⟩ := Prod.mk.inj h
    exact ⟨trivial, trivial, rfl⟩

theorem skip_manner (hr : r.InOrder) (h : r.skip n = (.ok k, r')) :
    r'.InOrder ∧ r'.manner = r.manner := by
  cases r with
  | delimited r =>
    simp only [skip] at h
    rcases hskip : r.skip n with ⟨outcome, r₁⟩
    rw [hskip] at h
    cases h
    obtain ⟨hsound, hdialect, hforced, hmax⟩ := DelimitedReader.skipFrom_sound hr hskip
    refine ⟨hsound, ?_⟩
    rw [manner, manner, hdialect, hforced, hmax]
  | fixed r =>
    have hcounted := (skip_ok (r := .fixed r) hr h).1
    simp only [skip] at h
    rcases hskip : r.skip n with ⟨outcome, r₁⟩
    rw [hskip] at h
    cases h
    obtain ⟨hlayout, hblanks⟩ := FixedReader.skipFrom_layout hr hskip
    refine ⟨hcounted, ?_⟩
    rw [manner, manner, hlayout, hblanks]
  | rows r =>
    obtain ⟨-, rfl⟩ := Prod.mk.inj h
    exact ⟨trivial, rfl⟩

/-- All records of a reader are made in its manner. -/
theorem Yields.makes (h : r.Yields xs r') (hr : r.InOrder) : ∀ x ∈ xs, r.manner.Makes x := by
  induction h with
  | nil => nofun
  | cons hnext _ ih =>
    obtain ⟨hmakes, hinOrder, hmanner⟩ := next_manner hr hnext
    rw [hmanner] at ih
    exact List.forall_mem_cons.mpr ⟨hmakes, ih hinOrder⟩

end Manner

/-! ## A new reader -/

variable {s : ByteSource} {o : Options} {schema : Schema} {r again : RecordReader}
  {bs : Bytes} {xs : List Record}

/-- A reader that starts for some bytes starts for all, and in the same
manner. -/
theorem start_again (h : start (.bytes s) o schema = .ok r) (bs : Bytes) (cuts : List Cut) :
    r.InOrder ∧ ∃ again, start (.bytes { rest := bs, cuts := cuts }) o schema = .ok again ∧
      again.manner = r.manner ∧ again.Before bs := by
  cases started_of_start h with
  | @delimited _ forced format columns =>
    exact ⟨Buffer.sound_ofSizes _ _, _, (Started.delimited format columns).start, rfl,
      DelimitedReader.ready_start bs cuts o.dialect forced _ _, rfl, rfl⟩
  | @fixed _ layout format fields =>
    exact ⟨Buffer.counted_ofSizes _ _, _, (Started.fixed format fields).start, rfl,
      FixedReader.ready_start bs cuts layout o.preserveBlanks _ _, rfl, rfl⟩

/-- A reader for a delimited format reads in its dialect. -/
theorem start_delimited (hformat : o.format = .csv ∨ o.format = .text)
    (h : start (.bytes s) o schema = .ok r) :
    ∃ forced limit, r.manner = .delimited o.dialect forced limit := by
  cases started_of_start h with
  | delimited => exact ⟨_, _, rfl⟩
  | fixed format => simp [format] at hformat

/-- A record that the input has not ended inside can be made again, if
records are of fixed width or it has no line feed behind an escape. -/
theorem start_repeats (h : start (.bytes s) o schema = .ok r) {x : Record}
    (hwhole : x.shortfall = none) (hends : o.format = .fixed ∨ ¬ o.dialect.Dangling x.raw) :
    r.manner.Repeats x := by
  cases started_of_start h with
  | delimited format =>
    refine hends.resolve_left fun hfixed => ?_
    simp [hfixed] at format
  | fixed => exact hwhole

/-- **Records that can be made again are read again**, from their bytes
one after another. -/
theorem delivers_again (hbefore : again.Before (xs.map Record.raw).flatten)
    (hmakes : ∀ x ∈ xs, again.manner.Makes x) (hrepeats : ∀ x ∈ xs, again.manner.Repeats x) :
    again.Delivers (Record.renumber 0 xs) (.ok ()) := by
  cases again with
  | delimited r =>
    obtain ⟨hready, hunread, hcount⟩ := hbefore
    rw [← hcount]
    exact (DelimitedReader.delivers_renumber_iff hready hmakes hunread).mpr hrepeats
  | fixed r =>
    obtain ⟨hready, hunread, hcount⟩ := hbefore
    rw [← hcount]
    exact FixedReader.delivers_renumber hready
      (fun x hx => ⟨hrepeats x hx, hmakes x hx (hrepeats x hx)⟩) hunread
  | rows r => exact hbefore.elim

/-- **Delimited records are read again exactly if none of them has its
line feed behind an escape.** -/
theorem delivers_again_iff {d : Dialect} {forced : List Bool} {limit : Nat}
    (hmanner : again.manner = .delimited d forced limit)
    (hbefore : again.Before (xs.map Record.raw).flatten)
    (hmakes : ∀ x ∈ xs, again.manner.Makes x) :
    again.Delivers (Record.renumber 0 xs) (.ok ()) ↔ ∀ x ∈ xs, ¬ d.Dangling x.raw := by
  cases again with
  | delimited r =>
    obtain ⟨hready, hunread, hcount⟩ := hbefore
    cases hmanner
    rw [← hcount]
    exact DelimitedReader.delivers_renumber_iff hready hmakes hunread
  | fixed r => cases hmanner
  | rows r => cases hmanner

end RecordReader
end Intake
