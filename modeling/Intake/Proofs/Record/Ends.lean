import Mathlib.Data.List.TakeWhile
import Intake.Proofs.Record.Escapes
import Intake.Proofs.Record.Filling
import Intake.Proofs.Record.Stream
/-!
# Records that end by themselves

The bytes of a record are *closed* if the scan, started afresh on them,
finds their end at the last byte and nowhere before (`Dialect.Closed`).
Closed records may be put one after another, and dividing the whole gives
each of them back (`divide_flatten`), whatever input they come from.

A record that a reader hands out is closed, with one exception: where the
input ends behind an escape, the line feed that is added is a literal byte
for any later scan (`Dialect.Dangling`). `next_some` says so of a reader
whose source may fail, and asks nothing but that the arena is in order.
-/

namespace Intake

/-! ## The arena stays in order -/

namespace Buffer

variable {b b' : Buffer}

/-- A fill that does not fail leaves the arena in order. -/
theorem Sound.fill (h : b.Sound) {s s' : ByteSource} {record : Nat} {bs : Bytes}
    (hfill : b.fill s record = ⟨.ok bs, b', s'⟩) : b'.Sound ∧ b'.max = b.max := by
  have hfilled := h.filled s record
  rwa [hfill] at hfilled

/-- An end that is added leaves the arena in order. -/
theorem Sound.terminate (h : b.Sound) {byte : UInt8} {record : Nat}
    (hterm : b.terminate byte record = (.ok (), b')) : b'.Sound ∧ b'.max = b.max := by
  have hterminated := h.terminated byte record
  rwa [hterm] at hterminated

end Buffer

/-! ## Closed records -/

namespace Dialect

/-- The scan, started at the first byte of a record, ends it with its
last. -/
def Closed (d : Dialect) (raw : Bytes) : Prop :=
  ∃ body, raw = body ++ [Csv.lineFeed] ∧ d.regionAfter .outside body = some .outside

/-- The line feed at the end of a record stands behind an escape. -/
def Dangling (d : Dialect) (raw : Bytes) : Prop :=
  ∃ body, raw = body ++ [Csv.lineFeed] ∧ d.regionAfter .outside body = some .escaped

section Closed

variable {d : Dialect} {region r : Region} {raw xs : Bytes} {raws : List Bytes}

/-- Dividing goes on where the scan stands. -/
theorem divideFrom_append (h : d.regionAfter region xs = some r) (seen ys : Bytes) :
    d.divideFrom region seen (xs ++ ys) = d.divideFrom r (seen ++ xs) ys := by
  induction xs generalizing region seen with
  | nil =>
    cases h
    rw [List.nil_append, List.append_nil]
  | cons b xs ih =>
    obtain ⟨next, hnext, hrest⟩ := Option.bind_eq_some_iff.mp h
    rw [List.cons_append, divideFrom_next d hnext, ih hrest, List.append_assoc,
      List.singleton_append]

/-- A line feed outside quotes closes what was seen. -/
theorem next_lineFeed (d : Dialect) : Region.next d .outside Csv.lineFeed = none := by
  simp [Region.next]

/-- A closed record is the first segment of any input that begins with it. -/
theorem Closed.divide_append (h : d.Closed raw) (bs : Bytes) :
    d.divide (raw ++ bs) = { d.divide bs with closed := raw :: (d.divide bs).closed } := by
  obtain ⟨body, rfl, hbody⟩ := h
  rw [divide, List.append_assoc, divideFrom_append hbody, List.singleton_append,
    divideFrom_end d (next_lineFeed d), List.nil_append]

/-- **Closed records, one after another, are divided into themselves.** -/
theorem divide_flatten (h : ∀ raw ∈ raws, d.Closed raw) :
    d.divide raws.flatten = ⟨raws, [], .outside⟩ := by
  induction raws with
  | nil => rfl
  | cons raw raws ih =>
    rw [List.flatten_cons, (h raw List.mem_cons_self).divide_append,
      ih fun raw hraw => h raw (List.mem_cons_of_mem _ hraw)]

theorem Dangling.not_closed (h : d.Dangling raw) : ¬ d.Closed raw := by
  rintro ⟨body, rfl, hbody⟩
  obtain ⟨body', heq, hbody'⟩ := h
  obtain rfl := List.append_cancel_right heq
  cases hbody.symm.trans hbody'

/-- With quotes there is nothing for an escape to do outside them. -/
theorem not_dangling_of_quote {q : UInt8} (hq : d.quote = some q) : ¬ d.Dangling raw := by
  have key : ∀ {xs : Bytes} (region : Region), region ≠ .escaped →
      d.regionAfter region xs ≠ some .escaped := by
    intro xs
    induction xs with
    | nil => exact fun _ hregion h => hregion (Option.some.inj h)
    | cons b xs ih =>
      intro region hregion h
      obtain ⟨next, hnext, hrest⟩ := Option.bind_eq_some_iff.mp h
      refine ih _ ?_ hrest
      rintro rfl
      cases region with
      | outside =>
        simp only [Region.next, plainEscape_eq_none hq, reduceCtorEq, if_false] at hnext
        split at hnext
        · cases hnext
        · split at hnext <;> cases hnext
      | quoted =>
        simp only [Region.next] at hnext
        split at hnext
        · cases hnext
        · split at hnext <;> cases hnext
      | quotedEscape => cases hnext
      | escaped => exact hregion rfl
  rintro ⟨body, -, hbody⟩
  exact key .outside (by decide) hbody

/-- The segments of a division that leaves no tail are closed. -/
theorem closed_of_mem_segments {input : Bytes} (htail : (d.divide input).tail = [])
    (h : raw ∈ (d.divide input).segments) : d.Closed raw := by
  rw [Division.segments, if_pos htail, List.append_nil] at h
  exact (regionAfter_divideFrom rfl input).1 raw h

end Closed

end Dialect

/-! ## What a reader hands out -/

/-- What a record is that a reader of a dialect hands out: it is divided
into fields as it should be, and it ends at a line feed that ends it or at
one that was added behind an escape. -/
structure Record.Delimited (d : Dialect) (forced : List Bool) (limit : Nat) (x : Record) :
    Prop where
  fields_eq : x.fields = split d forced (stripEnd x.raw)
  whole : x.shortfall = none
  fits : x.raw.length < limit
  ends : d.Closed x.raw ∨ d.Dangling x.raw

namespace DelimitedReader

open Dialect

/-- A record that a line feed is added to ends outside quotes. -/
theorem conclude_alike {r r' : DelimitedReader} {m n : Nat} {region : Region}
    (hr : r.buffer.Sound) (h : r.conclude m region = (.ok (some n), r')) :
    region.isQuoted = false ∧ Alike r r' ∧ r'.buffer.Sound := by
  unfold conclude at h
  split at h
  · cases h
  split at h
  · cases h
  next hquoted =>
  split at h
  · cases h
  next buffer hterm =>
  cases h
  obtain ⟨hsound, hmax⟩ := hr.terminate hterm
  exact ⟨by simpa using hquoted, ⟨rfl, rfl, rfl, hmax⟩, hsound⟩

/-- A record that is measured is pending as a whole.

The induction is on what the source still holds; `seen` are the pending
bytes that have been scanned. -/
theorem ends_of_measureFrom {r r' : DelimitedReader} {n : Nat} {region : Region}
    {seen fresh : Bytes} (hr : r.buffer.Sound) (hpending : r.buffer.pending = seen ++ fresh)
    (hregion : r.dialect.regionAfter .outside seen = some region)
    (h : r.measureFrom seen.length region fresh = (.ok (some n), r')) :
    Alike r r' ∧ r'.buffer.Sound ∧ n ≤ r'.buffer.pending.length ∧
      (r.dialect.Closed (r'.buffer.pending.take n) ∨
        r.dialect.Dangling (r'.buffer.pending.take n)) := by
  induction hk : r.source.rest.length using Nat.strongRecOn generalizing r region seen fresh with
  | ind k ih =>
    cases hscan : scan r.dialect seen.length region fresh with
    | found m =>
      obtain ⟨hlt, hle, hdivide⟩ := r.dialect.divideFrom_of_found hscan seen
      have hlen : m ≤ r.buffer.pending.length := by
        rw [hpending, List.length_append]
        exact hle
      -- what is taken is the first segment of the division of what is pending
      have htake : r.buffer.pending.take m = seen ++ fresh.take (m - seen.length) := by
        rw [hpending, List.take_append, List.take_of_length_le (Nat.le_of_lt hlt)]
      have hclosed : r.dialect.Closed (r.buffer.pending.take m) := by
        refine (regionAfter_divideFrom hregion fresh).1 _ ?_
        rw [hdivide, htake]
        exact List.mem_cons_self
      rw [measureFrom_found hscan] at h
      cases h
      exact ⟨.refl r', hr, hlen, .inl hclosed⟩
    | unfinished m last =>
      obtain ⟨hm, -⟩ := r.dialect.divideFrom_of_unfinished hscan []
      have hlast : r.dialect.regionAfter .outside (seen ++ fresh) = some last := by
        rw [hm, scan_eq_unfinished_iff] at hscan
        rw [regionAfter_append, hregion]
        exact hscan
      have hm' : m = (seen ++ fresh).length := by rw [hm, List.length_append]
      rcases hfill : r.buffer.fill r.source (r.count + 1) with ⟨_ | bs, b, s⟩
      · rw [measureFrom_failed hscan hfill] at h
        cases h
      · obtain ⟨hpending', -, -⟩ := Buffer.pending_of_fill hfill
        obtain ⟨hsound, hmax⟩ := hr.fill hfill
        have halike : Alike r { r with buffer := b, source := s } := ⟨rfl, rfl, rfl, hmax⟩
        cases bs with
        | cons x xs =>
          rw [measureFrom_filled hscan hfill, hm'] at h
          obtain ⟨halike', hrest⟩ := ih _ (hk ▸ Buffer.rest_lt_of_fill hfill)
            (r := { r with buffer := b, source := s }) hsound
            (hpending'.trans (by rw [hpending])) hlast h rfl
          exact ⟨halike.trans halike', hrest⟩
        | nil =>
          rw [measureFrom_ended hscan hfill] at h
          obtain ⟨-, rfl, -, hpend⟩ := conclude_some h
          obtain ⟨hquoted, halike', hsound'⟩ := conclude_alike hsound h
          have hall : r'.buffer.pending = (seen ++ fresh) ++ [Csv.lineFeed] := by
            rw [hpend, hpending', hpending, List.append_nil]
          have hlen : r'.buffer.pending.length = m + 1 := by
            rw [hall, List.length_append, List.length_singleton, hm']
          refine ⟨halike.trans halike', hsound', Nat.le_of_eq hlen.symm, ?_⟩
          rw [← hlen, List.take_length, hall]
          cases last with
          | outside => exact .inl ⟨_, rfl, hlast⟩
          | escaped => exact .inr ⟨_, rfl, hlast⟩
          | quoted => cases hquoted
          | quotedEscape => cases hquoted

/-- **A record that is handed out ends where a scan of its bytes ends**,
or its line feed was added behind an escape. -/
theorem next_some {r r' : DelimitedReader} {x : Record} (hr : r.buffer.Sound)
    (h : r.next = (.ok (some x), r')) :
    x.Delimited r.dialect r.forced r.buffer.max ∧ r'.buffer.Sound ∧ r'.dialect = r.dialect ∧
      r'.forced = r.forced ∧ r'.buffer.max = r.buffer.max := by
  rcases hmeasure : r.measure with ⟨_ | _ | n, r₁⟩
  · rw [next_of_error hmeasure] at h
    cases h
  · rw [next_of_end hmeasure] at h
    cases h
  · obtain ⟨halike, hsound, hle, hends⟩ :=
      ends_of_measureFrom hr (List.nil_append _).symm rfl hmeasure
    rw [next_of_measure hmeasure halike] at h
    cases h
    have hlt := hsound.pending_lt
    rw [halike.max] at hlt
    refine ⟨⟨rfl, rfl, ?_, hends⟩, hsound.consume hle, halike.dialect, halike.forced,
      halike.max⟩
    show (r₁.buffer.pending.take n).length < r.buffer.max
    rw [List.length_take]
    omega

/-- Passing over records leaves a reader of the same manner. -/
theorem skipFrom_sound {wanted left k : Nat} {r r' : DelimitedReader} (hr : r.buffer.Sound)
    (h : r.skipFrom wanted left = (.ok k, r')) :
    r'.buffer.Sound ∧ r'.dialect = r.dialect ∧ r'.forced = r.forced ∧
      r'.buffer.max = r.buffer.max := by
  induction left generalizing r with
  | zero =>
    cases h
    exact ⟨hr, rfl, rfl, rfl⟩
  | succ left ih =>
    rw [skipFrom] at h
    rcases hmeasure : r.measure with ⟨_ | _ | n, r₁⟩
    · rw [hmeasure] at h
      cases h
    · rw [hmeasure] at h
      cases h
    · rw [hmeasure] at h
      obtain ⟨halike, hsound, hle, -⟩ :=
        ends_of_measureFrom hr (List.nil_append _).symm rfl hmeasure
      obtain ⟨hsound', hdialect, hforced, hmax⟩ :=
        ih (r := r₁.advance n) (hsound.consume hle) h
      exact ⟨hsound', hdialect.trans halike.dialect, hforced.trans halike.forced,
        hmax.trans halike.max⟩

end DelimitedReader

/-! ## Reading closed records again -/

/-- What is made of numbered items without regard to their numbers. -/
theorem map_zipIdx_eq_map {α β : Type} {f : α × Nat → β} {g : α → β} (h : ∀ a, f a = g a.1)
    (count : Nat) (xs : List α) : (xs.zipIdx count).map f = xs.map g := by
  rw [show f = g ∘ Prod.fst from funext h, ← List.map_map, List.zipIdx_map_fst]

/-- Records as they are counted after `count` others. -/
def Record.renumber (count : Nat) : List Record → List Record
  | [] => []
  | x :: xs => { x with number := count + 1 } :: renumber (count + 1) xs

@[simp] theorem Record.raw_renumber (count : Nat) (xs : List Record) :
    (Record.renumber count xs).map Record.raw = xs.map Record.raw := by
  induction xs generalizing count with
  | nil => rfl
  | cons x xs ih => rw [renumber, List.map_cons, ih, List.map_cons]

theorem Division.stop_ne_some (limit count : Nat) (D : Division) (x : Record) :
    D.stop limit count ≠ .ok (some x) := by
  unfold stop
  dsimp only
  split
  · nofun
  · split <;> nofun

namespace RecordReader

/-- A reader has one list of records and one end. -/
theorem Delivers.unique {r : RecordReader} {xs ys : List Record}
    {stop stop' : Except LoadError Unit}
    (h : r.Delivers xs stop) (h' : r.Delivers ys stop') : xs = ys ∧ stop = stop' := by
  obtain ⟨r₁, last, hyields, hstop⟩ := h
  obtain ⟨r₂, last', hyields', hstop'⟩ := h'
  induction hyields generalizing ys with
  | nil r =>
    cases hyields' with
    | nil =>
      rw [hstop] at hstop'
      cases stop <;> cases stop' <;> cases hstop' <;> exact ⟨rfl, rfl⟩
    | cons next yields =>
      rw [hstop] at next
      cases stop <;> cases next
  | cons next yields ih =>
    cases hyields' with
    | nil =>
      rw [next] at hstop'
      cases stop' <;> cases hstop'
    | cons next' yields' =>
      cases next.symm.trans next'
      obtain ⟨rfl, rfl⟩ := ih hstop yields'
      exact ⟨rfl, rfl⟩

end RecordReader

namespace DelimitedReader

open RecordReader

variable {r : DelimitedReader} {xs : List Record}

/-- The outcomes that are expected of a reader are what it delivers. -/
theorem delivers_of_expected (h : r.Ready) {stop : Except LoadError (Option Record)}
    (hstop : ∀ x, stop ≠ .ok (some x))
    (hexpected : r.expected = xs.map (fun x => .ok (some x)) ++ [stop]) :
    (RecordReader.delimited r).Delivers xs (stop.map fun _ => ()) := by
  induction xs generalizing r with
  | nil =>
    have hfollows := follows_expected h
    rw [hexpected] at hfollows
    generalize hlast : List.map (fun x => Except.ok (some x)) [] ++ [stop] = rest at hfollows
    cases hfollows with
    | @last _ r' next ends =>
      obtain rfl := (List.cons.inj hlast).1
      refine ⟨_, .delimited r', .nil _, ?_⟩
      rw [RecordReader.next, next]
      rcases stop with e | _ | x
      · rfl
      · rfl
      · exact absurd rfl (hstop x)
    | record next ready => exact absurd (List.cons.inj hlast).1 (hstop _)
  | cons x xs ih =>
    have hfollows := follows_expected h
    rw [hexpected, List.map_cons, List.cons_append] at hfollows
    generalize hrest : xs.map (fun x => Except.ok (some x)) ++ [stop] = rest at hfollows
    cases hfollows with
    | last next ends => exact absurd rfl (ends x)
    | @record _ r' next ready =>
      obtain ⟨last, final, hyields, hend⟩ := ih ready hrest.symm
      refine ⟨last, final, .cons ?_ hyields, hend⟩
      rw [RecordReader.next, next]

/-- What a reader delivers is the division of what it has not read. -/
theorem delivers_division (h : r.Ready) :
    (RecordReader.delimited r).Delivers
      ((r.dialect.divide r.unread).records r.dialect r.forced r.buffer.max r.count)
      (((r.dialect.divide r.unread).stop r.buffer.max r.count).map fun _ => ()) :=
  delivers_of_expected h (Division.stop_ne_some _ _ _) rfl

/-- The records of closed segments that fit. -/
theorem records_of_closed {d : Dialect} {forced : List Bool} {limit : Nat} (count : Nat)
    (h : ∀ x ∈ xs, x.Delimited d forced limit) :
    Division.records d forced limit count ⟨xs.map Record.raw, [], .outside⟩
      = Record.renumber count xs ∧
    Division.stop limit count ⟨xs.map Record.raw, [], .outside⟩ = .ok none := by
  have hfits : (xs.map Record.raw).takeWhile (·.length < limit) = xs.map Record.raw := by
    rw [List.takeWhile_map, List.takeWhile_eq_self_iff.mpr]
    exact fun x hx => decide_eq_true (h x hx).fits
  have hsegments : Division.segments ⟨xs.map Record.raw, [], .outside⟩ = xs.map Record.raw :=
    List.append_nil _
  refine ⟨?_, ?_⟩
  · rw [Division.records, Division.whole, hsegments]
    simp only [Region.isQuoted, Bool.false_eq_true, if_false, hfits]
    clear hfits hsegments
    induction xs generalizing count with
    | nil => rfl
    | cons x xs ih =>
      obtain ⟨hx, hxs⟩ := List.forall_mem_cons.mp h
      have hrecord :
          Division.record d forced (x.raw, count + 1) = { x with number := count + 1 } := by
        rw [Division.record, ← hx.fields_eq, ← hx.whole]
      rw [List.map_cons, List.zipIdx_cons, List.map_cons, hrecord, ih _ hxs, Record.renumber]
  · simp [Division.stop, hsegments, hfits, Region.isQuoted]

/-- **Records that are put one after another are read again**, with their
fields and counted afresh, exactly if none of them has its line feed
behind an escape. -/
theorem delivers_renumber_iff (h : r.Ready)
    (hxs : ∀ x ∈ xs, x.Delimited r.dialect r.forced r.buffer.max)
    (hunread : r.unread = (xs.map Record.raw).flatten) :
    (RecordReader.delimited r).Delivers (Record.renumber r.count xs) (.ok ())
      ↔ ∀ x ∈ xs, ¬ r.dialect.Dangling x.raw := by
  have hdelivers := delivers_division h
  constructor
  · intro hagain x hx hdangling
    obtain ⟨hrecords, hstop⟩ := hdelivers.unique hagain
    have hstop' : (r.dialect.divide r.unread).stop r.buffer.max r.count = .ok none := by
      have hsome := Division.stop_ne_some r.buffer.max r.count (r.dialect.divide r.unread)
      generalize (r.dialect.divide r.unread).stop r.buffer.max r.count = stop at hstop hsome
      rcases stop with e | _ | y
      · cases hstop
      · rfl
      · exact absurd rfl (hsome y)
    -- the segments are the records put together, so no line feed has been added
    have hraws := Division.raw_records_of_stop r.dialect r.forced r.buffer.max r.count hstop'
    rw [hrecords, Record.raw_renumber] at hraws
    have hflatten := r.dialect.flatten_segments r.unread
    rw [← hraws, ← hunread, eq_comm, List.append_right_eq_self, Division.completion] at hflatten
    have htail : (r.dialect.divide r.unread).tail = [] := by
      by_contra hne
      rw [if_neg hne] at hflatten
      cases hflatten
    refine hdangling.not_closed (Dialect.closed_of_mem_segments htail ?_)
    rw [← hraws]
    exact List.mem_map_of_mem hx
  · intro hclosed
    have hall : ∀ raw ∈ xs.map Record.raw, r.dialect.Closed raw := by
      intro raw hraw
      obtain ⟨x, hx, rfl⟩ := List.mem_map.mp hraw
      exact (hxs x hx).ends.resolve_right (hclosed x hx)
    obtain ⟨hrecords, hstop⟩ := records_of_closed r.count hxs
    rw [hunread, Dialect.divide_flatten hall, hrecords, hstop] at hdelivers
    exact hdelivers

end DelimitedReader
end Intake
