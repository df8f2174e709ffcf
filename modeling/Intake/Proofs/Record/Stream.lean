import Intake.Proofs.Record.Reading
import Intake.Record.Reader
/-!
# The records of a source

A reader of any format yields some records one after another and then
ends, just so or with a failure (`RecordReader.Delivers`). That it ends,
and after how many records at most, is proved here for every reader that
a run starts and has pass over some records (`exists_delivers`): each
record takes a byte at least, or a row, off what is left of the source.

The source may fail at its end, and nothing is asked of the bytes or of
the sizes of the arena. What the records of a delimited input are, is no
concern of this module.
-/

namespace Intake

/-! ## What is left of a source -/

namespace Buffer

/-- The arena knows how many bytes are pending. -/
def Counted (b : Buffer) : Prop := b.used = b.cursor + b.pending.length

theorem counted_ofSizes (size limit : Nat) : (ofSizes size limit).Counted :=
  (sound_ofSizes size limit).used_eq

theorem Counted.size_eq {b : Buffer} (h : b.Counted) : b.size = b.pending.length := by
  unfold Counted at h
  unfold size
  omega

theorem Counted.consume {b : Buffer} (h : b.Counted) {n : Nat} (hn : n ≤ b.pending.length) :
    (b.consume n).Counted := by
  unfold Counted at h ⊢
  rw [pending_consume, List.length_drop]
  show b.used = b.cursor + n + (b.pending.length - n)
  omega

/-- Making room keeps the pending bytes. -/
theorem makeRoom_pending (b : Buffer) (record : Nat) :
    (b.makeRoom record).2.pending = b.pending ∧ (b.Counted → (b.makeRoom record).2.Counted) := by
  have hslide : b.Counted → b.slide.Counted := by
    intro h
    unfold Counted at h ⊢
    rw [pending_slide]
    show b.used - b.cursor = 0 + b.pending.length
    omega
  have hgrow : ∀ b : Buffer, (b.grow record).2.pending = b.pending ∧
      (b.Counted → (b.grow record).2.Counted) := by
    intro b
    unfold grow
    split
    · exact ⟨rfl, id⟩
    · exact ⟨rfl, id⟩
  unfold makeRoom
  split
  · exact ⟨rfl, id⟩
  dsimp only
  split
  · exact hgrow b
  · split
    · exact ⟨pending_slide b, hslide⟩
    · exact ⟨(hgrow b.slide).1.trans (pending_slide b), fun h => (hgrow b.slide).2 (hslide h)⟩

/-- A fill moves bytes from the source to the arena. -/
theorem pending_of_fill {b b' : Buffer} {s s' : ByteSource} {record : Nat} {bs : Bytes}
    (h : b.fill s record = ⟨.ok bs, b', s'⟩) :
    b'.pending = b.pending ++ bs ∧ s.rest = bs ++ s'.rest ∧ (b.Counted → b'.Counted) := by
  refine and_left_comm.mp ⟨rest_of_fill h, ?_⟩
  unfold fill at h
  split at h
  · cases h
    exact ⟨(List.append_nil _).symm, id⟩
  · obtain ⟨hpending, hcounted⟩ := b.makeRoom_pending record
    generalize b.makeRoom record = made at h hpending hcounted
    obtain ⟨_ | _, room⟩ := made
    · cases h
    · dsimp only at h hpending hcounted
      split at h
      · cases h
        refine ⟨by rw [pending_push, hpending], fun hb => ?_⟩
        have hroom := hcounted hb
        unfold Counted at hroom ⊢
        rw [pending_push, List.length_append]
        show room.used + bs.length = room.cursor + (room.pending.length + bs.length)
        omega
      · cases h
        exact ⟨hpending.trans (List.append_nil _).symm, hcounted⟩
      · cases h

end Buffer

namespace DelimitedReader

/-- A record that the input ends in is completed by a line feed. -/
theorem conclude_some {r r' : DelimitedReader} {m n : Nat} {region : Region}
    (h : r.conclude m region = (.ok (some n), r')) :
    m ≠ 0 ∧ n = m + 1 ∧ r'.source = r.source ∧
      r'.buffer.pending = r.buffer.pending ++ [Csv.lineFeed] := by
  unfold conclude at h
  split at h
  · cases h
  next hm =>
  split at h
  · cases h
  obtain ⟨hroom, -⟩ := r.buffer.makeRoom_pending (r.count + 1)
  simp only [Buffer.terminate] at h
  generalize r.buffer.makeRoom (r.count + 1) = made at h hroom
  obtain ⟨_ | _, room⟩ := made
  · cases h
  · cases h
    refine ⟨hm, rfl, rfl, ?_⟩
    show (room.push [Csv.lineFeed]).pending = _
    rw [Buffer.pending_push, hroom]

/-- A record that is measured has a byte at least, and all of its bytes
are pending; a line feed may have been added to them. -/
theorem measureFrom_some {r r' : DelimitedReader} {size n : Nat} {region : Region} {fresh : Bytes}
    (hsize : size + fresh.length = r.buffer.pending.length)
    (h : r.measureFrom size region fresh = (.ok (some n), r')) :
    r'.unread.length < r.unread.length + n ∧ n ≤ r'.buffer.pending.length := by
  induction hk : r.source.rest.length using Nat.strongRecOn generalizing r size region fresh with
  | ind k ih =>
    cases hscan : scan r.dialect size region fresh with
    | found m =>
      obtain ⟨hpos, hle, -⟩ := r.dialect.divideFrom_of_found hscan []
      rw [measureFrom_found hscan] at h
      cases h
      exact ⟨by omega, by omega⟩
    | unfinished m last =>
      obtain ⟨hm, -⟩ := r.dialect.divideFrom_of_unfinished hscan []
      rcases hfill : r.buffer.fill r.source (r.count + 1) with ⟨_ | bs, b, s⟩
      · rw [measureFrom_failed hscan hfill] at h
        cases h
      · obtain ⟨hpending, hrest, -⟩ := Buffer.pending_of_fill hfill
        have hunread : b.pending ++ s.rest = r.unread := by
          rw [hpending, List.append_assoc, ← hrest]
          rfl
        cases bs with
        | cons x xs =>
          rw [measureFrom_filled hscan hfill] at h
          rw [← hunread]
          refine ih _ (hk ▸ Buffer.rest_lt_of_fill hfill) ?_ h rfl
          show m + (x :: xs).length = b.pending.length
          rw [hpending, List.length_append]
          omega
        | nil =>
          rw [measureFrom_ended hscan hfill] at h
          obtain ⟨hm0, rfl, hsource, hpend⟩ := conclude_some h
          have hlen : r.unread.length = b.pending.length + s.rest.length := by
            rw [← hunread, List.length_append]
          have hbuffer : b.pending.length = r.buffer.pending.length := by
            rw [hpending, List.append_nil]
          have hadded : r'.buffer.pending.length = b.pending.length + 1 := by
            rw [hpend, List.length_append, List.length_singleton]
          -- one byte is added, and two at least are taken
          refine ⟨?_, by omega⟩
          rw [unread, hsource, List.length_append]
          dsimp only
          omega

/-- A record that is handed out is taken off the unread bytes. -/
theorem measure_some {r r' : DelimitedReader} {n : Nat} (h : r.measure = (.ok (some n), r')) :
    (r'.advance n).unread.length < r.unread.length := by
  obtain ⟨hless, hle⟩ := measureFrom_some (Nat.zero_add _) h
  show ((r'.buffer.consume n).pending ++ r'.source.rest).length < _
  have hlen : r'.unread.length = r'.buffer.pending.length + r'.source.rest.length :=
    List.length_append
  rw [Buffer.pending_consume, List.length_append, List.length_drop]
  omega

theorem skipFrom_ok {wanted left k : Nat} {r r' : DelimitedReader}
    (h : r.skipFrom wanted left = (.ok k, r')) : r'.unread.length ≤ r.unread.length := by
  induction left generalizing r with
  | zero =>
    cases h
    exact Nat.le_refl _
  | succ left ih =>
    rw [skipFrom] at h
    generalize hmeasure : r.measure = out at h
    obtain ⟨_ | _ | n, r₁⟩ := out
    · cases h
    · cases h
    · have hless := measure_some hmeasure
      have hrest := ih (r := r₁.advance n) h
      omega

end DelimitedReader

namespace FixedReader

/-- The bytes that have not been handed out in a record. -/
def unread (r : FixedReader) : Bytes := r.buffer.pending ++ r.source.rest

/-- What is gathered is pending. -/
theorem gather_ok {r r' : FixedReader} {n : Nat} (hr : r.buffer.Counted)
    (h : r.gather = (.ok n, r')) :
    r'.unread = r.unread ∧ r'.buffer.Counted ∧ n ≤ r'.buffer.pending.length := by
  induction hk : r.source.rest.length using Nat.strongRecOn generalizing r with
  | ind k ih =>
    unfold gather at h
    split at h
    · next hstride =>
      cases h
      exact ⟨rfl, hr, hr.size_eq ▸ hstride⟩
    · split at h
      · cases h
      · next x xs b s hfill =>
        obtain ⟨hpending, hrest, hcounted⟩ := Buffer.pending_of_fill hfill
        obtain ⟨hunread, hend⟩ := ih _ (hk ▸ Buffer.rest_lt_of_fill hfill)
          (r := { r with buffer := b, source := s }) (hcounted hr) h rfl
        refine ⟨hunread.trans ?_, hend⟩
        show b.pending ++ s.rest = r.buffer.pending ++ r.source.rest
        rw [hpending, List.append_assoc, ← hrest]
      · next b s hfill =>
        obtain ⟨hpending, hrest, hcounted⟩ := Buffer.pending_of_fill hfill
        cases h
        refine ⟨?_, hcounted hr, Nat.le_of_eq (hcounted hr).size_eq⟩
        show b.pending ++ s.rest = r.buffer.pending ++ r.source.rest
        rw [hpending, List.append_assoc, ← hrest]

/-- Taking bytes that are pending off a reader. -/
theorem unread_consume {r : FixedReader} {n : Nat} (hn : n ≤ r.buffer.pending.length) :
    ((r.buffer.consume n).pending ++ r.source.rest).length + n = r.unread.length := by
  rw [Buffer.pending_consume, unread, List.length_append, List.length_append, List.length_drop]
  omega

theorem skipFrom_ok {wanted left k : Nat} {r r' : FixedReader} (hr : r.buffer.Counted)
    (h : r.skipFrom wanted left = (.ok k, r')) :
    r'.buffer.Counted ∧ r'.unread.length ≤ r.unread.length := by
  induction left generalizing r with
  | zero =>
    cases h
    exact ⟨hr, Nat.le_refl _⟩
  | succ left ih =>
    rw [skipFrom] at h
    generalize hgather : r.gather = out at h
    obtain ⟨_ | n, r₁⟩ := out
    · cases h
    · obtain ⟨hunread, hcounted, hle⟩ := gather_ok hr hgather
      dsimp only at h
      split at h
      · cases h
      next hstride =>
      have hheld : r₁.layout.stride ≤ r₁.buffer.pending.length := by omega
      obtain ⟨hend, hrest⟩ := ih (r := { r₁ with
        buffer := r₁.buffer.consume r₁.layout.stride, count := r₁.count + 1 })
        (hcounted.consume hheld) h
      have hlen := unread_consume hheld
      rw [← hunread]
      refine ⟨hend, Nat.le_trans hrest ?_⟩
      show ((r₁.buffer.consume r₁.layout.stride).pending ++ r₁.source.rest).length ≤ _
      omega

end FixedReader

namespace RowReader

theorem skipFrom_ok {wanted left k : Nat} {r r' : RowReader}
    (h : r.skipFrom wanted left = (.ok k, r')) : r'.source.length ≤ r.source.length := by
  induction left generalizing r with
  | zero =>
    cases h
    exact Nat.le_refl _
  | succ left ih =>
    obtain ⟨source, count⟩ := r
    rw [skipFrom] at h
    cases source with
    | nil => cases h
    | cons row rest =>
      cases row with
      | error e => cases h
      | ok row => exact Nat.le_succ_of_le (ih (r := ⟨rest, count + 1⟩) h)

end RowReader

namespace RecordReader

/-- How much of the source is left, in bytes or in rows. -/
def left : RecordReader → Nat
  | delimited r => r.unread.length
  | fixed r => r.unread.length
  | rows r => r.source.length

/-- The arena of a reader of fixed-width records counts its bytes. -/
def Counted : RecordReader → Prop
  | fixed r => r.buffer.Counted
  | _ => True

/-- A record takes something off the source. -/
theorem next_record {r r' : RecordReader} {x : Record} (hr : r.Counted)
    (h : r.next = (.ok (some x), r')) : r'.Counted ∧ r'.left < r.left := by
  cases r with
  | delimited r =>
    simp only [next, DelimitedReader.next] at h
    generalize hmeasure : r.measure = out at h
    obtain ⟨_ | _ | n, r₁⟩ := out
    · cases h
    · cases h
    · cases h
      exact ⟨trivial, DelimitedReader.measure_some hmeasure⟩
  | fixed r =>
    simp only [next, FixedReader.next] at h
    generalize hgather : r.gather = out at h
    obtain ⟨_ | n, r₁⟩ := out
    · cases h
    · obtain ⟨hunread, hcounted, hle⟩ := FixedReader.gather_ok hr hgather
      have hlen := FixedReader.unread_consume hle
      dsimp only at h
      split at h
      · cases h
      next hn =>
      split at h
      · cases h
        refine ⟨hcounted.consume hle, ?_⟩
        show ((r₁.buffer.consume n).pending ++ r₁.source.rest).length < r.unread.length
        rw [← hunread]
        omega
      · cases h
        refine ⟨hcounted.consume hle, ?_⟩
        show ((r₁.buffer.consume n).pending ++ r₁.source.rest).length < r.unread.length
        rw [← hunread]
        omega
  | rows r =>
    obtain ⟨source, count⟩ := r
    simp only [next, RowReader.next] at h
    cases source with
    | nil => cases h
    | cons row rest =>
      cases row with
      | error e => cases h
      | ok row =>
        cases h
        exact ⟨trivial, Nat.lt_succ_self rest.length⟩

/-- Passing over records adds nothing to the source. -/
theorem skip_ok {r r' : RecordReader} {n k : Nat} (hr : r.Counted)
    (h : r.skip n = (.ok k, r')) : r'.Counted ∧ r'.left ≤ r.left := by
  cases r with
  | delimited r =>
    simp only [skip] at h
    generalize hskip : r.skip n = out at h
    obtain ⟨outcome, r₁⟩ := out
    cases h
    exact ⟨trivial, DelimitedReader.skipFrom_ok hskip⟩
  | fixed r =>
    simp only [skip] at h
    generalize hskip : r.skip n = out at h
    obtain ⟨outcome, r₁⟩ := out
    cases h
    exact FixedReader.skipFrom_ok hr hskip
  | rows r =>
    simp only [skip] at h
    generalize hskip : r.skip n = out at h
    obtain ⟨outcome, r₁⟩ := out
    cases h
    exact ⟨trivial, RowReader.skipFrom_ok hskip⟩

/-- What a reader is that starts. -/
inductive Started (o : Options) (schema : Schema) : Source → RecordReader → Prop
  | delimited {s : ByteSource} {forced : List Bool} (format : o.format = .csv ∨ o.format = .text)
      (columns : forcedColumns schema o.dialect.forceNotNull (List.replicate schema.width false)
        = .ok forced) :
      Started o schema (.bytes s) (.delimited
        { source := s
          buffer := Buffer.ofSizes o.bufferSize o.maxBufferSize
          dialect := o.dialect
          forced := forced })
  | fixed {s : ByteSource} {layout : Layout} (format : o.format = .fixed)
      (fields : layoutFor o schema = .ok layout) :
      Started o schema (.bytes s)
        (.fixed (.start s layout o.preserveBlanks o.bufferSize o.maxBufferSize))
  | rows {s : RowSource} (format : o.format = .function) :
      Started o schema (.rows s) (.rows { source := s })

section Started

variable {source : Source} {o : Options} {schema : Schema} {r : RecordReader}

theorem startDelimited_started {s : ByteSource} (hformat : o.format = .csv ∨ o.format = .text)
    (h : startDelimited s o schema = .ok r) : Started o schema (.bytes s) r := by
  unfold startDelimited at h
  rcases hforced : forcedColumns schema o.dialect.forceNotNull
      (List.replicate schema.width false) with e | forced
  · rw [hforced] at h
    cases h
  · rw [hforced] at h
    cases h
    exact .delimited hformat hforced

theorem started_of_start (h : start source o schema = .ok r) : Started o schema source r := by
  unfold start at h
  split at h
  case h_1 hformat => exact startDelimited_started (.inl hformat) h
  case h_2 hformat => exact startDelimited_started (.inr hformat) h
  case h_3 hformat =>
    rcases hfields : layoutFor o schema with e | layout
    · rw [hfields] at h
      cases h
    · rw [hfields] at h
      cases h
      exact .fixed hformat hfields
  case h_4 hformat =>
    cases h
    exact .rows hformat
  · cases h
  · cases h

theorem Started.start (h : Started o schema source r) : start source o schema = .ok r := by
  unfold RecordReader.start
  cases h with
  | delimited format columns =>
    rcases format with format | format <;>
    · rw [format]
      dsimp only
      rw [startDelimited, columns]
      rfl
  | fixed format fields =>
    rw [format]
    dsimp only
    rw [fields]
    rfl
  | rows format => rw [format]

/-- A reader that is started has all of its source left. -/
theorem start_ok (h : start source o schema = .ok r) :
    r.Counted ∧ r.left = match source with
      | .bytes s => s.rest.length
      | .rows s => s.length := by
  cases started_of_start h with
  | delimited => exact ⟨trivial, rfl⟩
  | fixed => exact ⟨Buffer.counted_ofSizes _ _, rfl⟩
  | rows => exact ⟨trivial, rfl⟩

end Started

/-! ## Streams -/

/-- Reading some records, one after another. -/
inductive Yields : RecordReader → List Record → RecordReader → Prop
  | nil (r : RecordReader) : Yields r [] r
  | cons {r mid r' : RecordReader} {x : Record} {xs : List Record}
      (next : r.next = (.ok (some x), mid)) (yields : Yields mid xs r') : Yields r (x :: xs) r'

/-- All the records of a reader, and how it ends. -/
def Delivers (r : RecordReader) (xs : List Record) (stop : Except LoadError Unit) : Prop :=
  ∃ r' last, r.Yields xs r' ∧ r'.next = (stop.map fun _ => none, last)

theorem Yields.split {r r' : RecordReader} {xs ys : List Record} (h : r.Yields (xs ++ ys) r') :
    ∃ mid, r.Yields xs mid ∧ mid.Yields ys r' := by
  induction xs generalizing r with
  | nil => exact ⟨r, .nil r, h⟩
  | cons x xs ih =>
    cases h with
    | cons next yields =>
      obtain ⟨mid, hxs, hys⟩ := ih yields
      exact ⟨mid, .cons next hxs, hys⟩

/-- **Every reader ends**, after no more records than there are bytes or
rows left of its source. -/
theorem exists_delivers {r : RecordReader} (hr : r.Counted) :
    ∃ xs stop, r.Delivers xs stop ∧ xs.length ≤ r.left := by
  induction hk : r.left using Nat.strongRecOn generalizing r with
  | ind k ih =>
    rcases hnext : r.next with ⟨_ | _ | x, r'⟩
    · next e => exact ⟨[], .error e, ⟨r, r', .nil r, hnext⟩, Nat.zero_le _⟩
    · exact ⟨[], .ok (), ⟨r, r', .nil r, hnext⟩, Nat.zero_le _⟩
    · obtain ⟨hcounted, hless⟩ := next_record hr hnext
      obtain ⟨xs, stop, ⟨r₁, last, hyields, hstop⟩, hlen⟩ := ih _ (hk ▸ hless) hcounted rfl
      refine ⟨x :: xs, stop, ⟨r₁, last, .cons hnext hyields, hstop⟩, ?_⟩
      rw [List.length_cons]
      omega

end RecordReader
end Intake
