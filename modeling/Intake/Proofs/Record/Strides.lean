import Intake.Proofs.Record.Ends
/-!
# Records of one stride

A reader of fixed-width records gathers bytes until a record is there or
the input ends. `Ready.gathers` says so of a reader whose arena can hold a
record and whose source does not fail: what it gathers is a record, or all
that is left. Records put one after another are therefore read as they are
(`delivers_renumber`).

Of a reader whose source may fail it is known what a record is that it
hands out (`next_some`).
-/

namespace Intake

/-- What a record is that a reader of fixed-width records hands out, if
the input does not end inside it. -/
structure Record.Fixed (layout : Layout) (preserveBlanks : Bool) (x : Record) : Prop where
  some_stride : layout.stride ≠ 0
  length_eq : x.raw.length = layout.stride
  fields_eq : x.fields = layout.fields.map fun f => f.read preserveBlanks x.raw

namespace FixedReader

section Gather

variable {r : FixedReader} (hshort : ¬ r.layout.stride ≤ r.buffer.size)

include hshort

/-- Less than a record, and a fill that adds bytes. -/
theorem gather_filled {x : UInt8} {xs : Bytes} {b : Buffer} {s : ByteSource}
    (hfill : r.buffer.fill r.source (r.count + 1) = ⟨.ok (x :: xs), b, s⟩) :
    r.gather = { r with buffer := b, source := s }.gather := by
  conv => lhs; unfold gather
  rw [if_neg hshort]
  split
  · next h => cases hfill.symm.trans h
  · next h => cases hfill.symm.trans h; rfl
  · next h => cases hfill.symm.trans h

/-- Less than a record, and no more bytes. -/
theorem gather_ended {b : Buffer} {s : ByteSource}
    (hfill : r.buffer.fill r.source (r.count + 1) = ⟨.ok [], b, s⟩) :
    r.gather = (.ok b.size, { r with buffer := b, source := s }) := by
  unfold gather
  rw [if_neg hshort]
  split
  · next h => cases hfill.symm.trans h
  · next h => cases hfill.symm.trans h
  · next h => cases hfill.symm.trans h; rfl

/-- Less than a record, and a fill that fails. -/
theorem gather_failed {e : LoadError} {b : Buffer} {s : ByteSource}
    (hfill : r.buffer.fill r.source (r.count + 1) = ⟨.error e, b, s⟩) :
    r.gather = (.error e, { r with buffer := b, source := s }) := by
  unfold gather
  rw [if_neg hshort]
  split
  · next h => cases hfill.symm.trans h; rfl
  · next h => cases hfill.symm.trans h
  · next h => cases hfill.symm.trans h

end Gather

/-- Gathering takes no more than one record, and changes no setting. -/
theorem gather_le {r r' : FixedReader} {n : Nat} (hr : r.buffer.Counted)
    (h : r.gather = (.ok n, r')) :
    n ≤ r.layout.stride ∧ r'.layout = r.layout ∧ r'.preserveBlanks = r.preserveBlanks := by
  induction hk : r.source.rest.length using Nat.strongRecOn generalizing r with
  | ind k ih =>
    by_cases hheld : r.layout.stride ≤ r.buffer.size
    · rw [gather, if_pos hheld] at h
      cases h
      exact ⟨Nat.le_refl _, rfl, rfl⟩
    · rcases hfill : r.buffer.fill r.source (r.count + 1) with ⟨_ | _ | ⟨x, xs⟩, b, s⟩
      · rw [gather_failed hheld hfill] at h
        cases h
      · obtain ⟨hpending, -, hcounted⟩ := Buffer.pending_of_fill hfill
        rw [gather_ended hheld hfill] at h
        cases h
        refine ⟨?_, rfl, rfl⟩
        rw [(hcounted hr).size_eq, hpending, List.append_nil, ← hr.size_eq]
        exact Nat.le_of_not_le hheld
      · obtain ⟨-, -, hcounted⟩ := Buffer.pending_of_fill hfill
        rw [gather_filled hheld hfill] at h
        exact ih _ (hk ▸ Buffer.rest_lt_of_fill hfill) (r := { r with buffer := b, source := s })
          (hcounted hr) h rfl

/-- A record that is handed out has the bytes of one stride, or says that
it has not. -/
theorem next_some {r r' : FixedReader} {x : Record} (hr : r.buffer.Counted)
    (h : r.next = (.ok (some x), r')) :
    (x.shortfall = none → x.Fixed r.layout r.preserveBlanks) ∧ r'.layout = r.layout ∧
      r'.preserveBlanks = r.preserveBlanks := by
  rw [next] at h
  rcases hgather : r.gather with ⟨_ | n, r₁⟩
  · rw [hgather] at h
    cases h
  · obtain ⟨-, -, hheld⟩ := gather_ok hr hgather
    obtain ⟨hle, hlayout, hblanks⟩ := gather_le hr hgather
    rw [hgather] at h
    dsimp only at h
    split at h
    · cases h
    next hsome =>
    split at h
    · cases h
      refine ⟨fun hwhole => ?_, hlayout, hblanks⟩
      cases hwhole
    · next hstride =>
      rw [hlayout] at hstride
      cases h
      refine ⟨fun _ => ⟨by omega, ?_, ?_⟩, hlayout, hblanks⟩
      · show (r₁.buffer.pending.take n).length = r.layout.stride
        rw [List.length_take]
        omega
      · rw [← hlayout, ← hblanks]

theorem skipFrom_layout {wanted left k : Nat} {r r' : FixedReader} (hr : r.buffer.Counted)
    (h : r.skipFrom wanted left = (.ok k, r')) :
    r'.layout = r.layout ∧ r'.preserveBlanks = r.preserveBlanks := by
  induction left generalizing r with
  | zero =>
    cases h
    exact ⟨rfl, rfl⟩
  | succ left ih =>
    rw [skipFrom] at h
    rcases hgather : r.gather with ⟨_ | n, r₁⟩
    · rw [hgather] at h
      cases h
    · obtain ⟨-, hcounted, hheld⟩ := gather_ok hr hgather
      obtain ⟨-, hlayout, hblanks⟩ := gather_le hr hgather
      rw [hgather] at h
      dsimp only at h
      split at h
      · cases h
      next hstride =>
      obtain ⟨hlayout', hblanks'⟩ := ih (r := { r₁ with
        buffer := r₁.buffer.consume r₁.layout.stride, count := r₁.count + 1 })
        (hcounted.consume (by omega)) h
      exact ⟨hlayout'.trans hlayout, hblanks'.trans hblanks⟩

/-- A reader between two reads whose arena can hold a record, and whose
source does not fail. -/
structure Ready (r : FixedReader) : Prop where
  sound : r.buffer.Sound
  quiet : r.source.failure = none
  room : r.layout.stride < r.buffer.max
  exhausted : r.buffer.ended = true → r.source.rest = []

theorem ready_start (input : Bytes) (cuts : List Cut) (layout : Layout) (preserveBlanks : Bool)
    (size limit : Nat) :
    Ready (start { rest := input, cuts := cuts } layout preserveBlanks size limit) where
  sound := Buffer.sound_ofSizes _ _
  quiet := rfl
  room := by
    show layout.stride < (Buffer.ofSizes (max size (layout.stride + 1))
      (max limit (layout.stride + 1))).max
    rw [Buffer.max_ofSizes]
    omega
  exhausted he := nomatch he

/-- What gathering comes to: a record, or all that is left, is pending. -/
structure Gathers (r r' : FixedReader) : Prop where
  gather_eq : r.gather = (.ok (min r.layout.stride r.unread.length), r')
  ready : r'.Ready
  same : r'.unread = r.unread
  held : min r.layout.stride r.unread.length ≤ r'.buffer.pending.length
  layout : r'.layout = r.layout
  blanks : r'.preserveBlanks = r.preserveBlanks
  count : r'.count = r.count

section Gathers

variable {r r' : FixedReader}

/-- What has been gathered are the first of the bytes that are unread, -/
theorem Gathers.taken (h : Gathers r r') :
    r'.buffer.pending.take (min r.layout.stride r.unread.length)
      = r.unread.take (min r.layout.stride r.unread.length) :=
  (List.take_append_of_le_length h.held).symm.trans (congrArg (List.take _) h.same)

/-- and the others are unread behind it. -/
theorem Gathers.left (h : Gathers r r') :
    (r'.buffer.consume (min r.layout.stride r.unread.length)).pending ++ r'.source.rest
      = r.unread.drop (min r.layout.stride r.unread.length) := by
  rw [Buffer.pending_consume, ← List.drop_append_of_le_length h.held]
  exact congrArg (List.drop _) h.same

end Gathers

/-- At the end of the source all that is left is pending. -/
theorem Ready.gathers_ended {r : FixedReader} {b : Buffer} (h : r.Ready)
    (hheld : ¬ r.layout.stride ≤ r.buffer.size)
    (hfill : r.buffer.fill r.source (r.count + 1) = ⟨.ok [], b, r.source⟩)
    (hrest : r.source.rest = []) (hsound : b.Sound) (hpending : b.pending = r.buffer.pending)
    (hmax : b.max = r.buffer.max) : Gathers r { r with buffer := b } := by
  have hunread : r.unread = r.buffer.pending := by rw [unread, hrest, List.append_nil]
  have hsize : r.buffer.size = r.buffer.pending.length := Buffer.Counted.size_eq h.sound.used_eq
  have hcount := Buffer.Counted.size_eq hsound.used_eq
  rw [hpending] at hcount
  have hall : min r.layout.stride r.unread.length = b.size := by
    rw [hunread]
    omega
  refine ⟨by rw [hall]; exact gather_ended hheld hfill, ⟨hsound, h.quiet, ?_, fun _ => hrest⟩,
    ?_, ?_, rfl, rfl, rfl⟩
  · show r.layout.stride < b.max
    rw [hmax]
    exact h.room
  · show b.pending ++ r.source.rest = _
    rw [hpending]
    rfl
  · show _ ≤ b.pending.length
    rw [hpending, hunread]
    exact Nat.min_le_right _ _

/-- Such a reader gathers. The induction is on what the source still
holds. -/
theorem Ready.gathers {r : FixedReader} (h : r.Ready) : ∃ r', Gathers r r' := by
  induction hk : r.source.rest.length using Nat.strongRecOn generalizing r with
  | ind k ih =>
    have hsize : r.buffer.size = r.buffer.pending.length := Buffer.Counted.size_eq h.sound.used_eq
    have hlength : r.unread.length = r.buffer.pending.length + r.source.rest.length :=
      List.length_append
    have hroom := h.room
    by_cases hheld : r.layout.stride ≤ r.buffer.size
    · refine ⟨r, ?_, h, rfl, by omega, rfl, rfl, rfl⟩
      rw [gather, if_pos hheld, Nat.min_eq_left (by omega)]
    cases he : r.buffer.ended with
    | true =>
      exact ⟨_, h.gathers_ended hheld (Buffer.fill_of_ended he r.source (r.count + 1))
        (h.exhausted he) h.sound rfl rfl⟩
    | false =>
      by_cases hrest : r.source.rest = []
      · obtain ⟨b', hfill, hsound, hpending, hmax, -⟩ :=
          Buffer.fill_of_nil h.sound he (r.count + 1) (by omega) hrest h.quiet
        exact ⟨_, h.gathers_ended hheld hfill hrest hsound hpending hmax⟩
      · obtain ⟨bs, b', s', hfill, hne, hbs, hfail, hsound, hpending, hmax, hend⟩ :=
          Buffer.fill_of_rest h.sound he (r.count + 1) (by omega) hrest
        obtain ⟨x, xs, rfl⟩ := List.exists_cons_of_ne_nil hne
        have hready : Ready { r with buffer := b', source := s' } := by
          refine ⟨hsound, hfail.trans h.quiet, ?_, fun hended' => ?_⟩
          · show r.layout.stride < b'.max
            omega
          · cases hend.symm.trans hended'
        have hunread : unread { r with buffer := b', source := s' } = r.unread := by
          show b'.pending ++ s'.rest = r.buffer.pending ++ r.source.rest
          rw [hpending, hbs, List.append_assoc]
        obtain ⟨r', hgathers⟩ := ih _ (hk ▸ Buffer.rest_lt_of_fill hfill) hready rfl
        obtain ⟨hgather, hready', hsame, hheld', hlayout, hblanks, hcount⟩ := hgathers
        rw [hunread] at hgather hsame hheld'
        exact ⟨r', (gather_filled hheld hfill).trans hgather, hready', hsame, hheld', hlayout,
          hblanks, hcount⟩

/-- The next record of one stride. -/
theorem Ready.next_of_append {r : FixedReader} (h : r.Ready) {x : Record}
    (hwhole : x.shortfall = none) (hx : x.Fixed r.layout r.preserveBlanks) {rest : Bytes}
    (hunread : r.unread = x.raw ++ rest) :
    ∃ r', r.next = (.ok (some { x with number := r.count + 1 }), r') ∧ r'.Ready ∧
      r'.unread = rest ∧ r'.layout = r.layout ∧ r'.preserveBlanks = r.preserveBlanks ∧
      r'.count = r.count + 1 := by
  obtain ⟨r₁, hgathers⟩ := h.gathers
  have htaken := hgathers.taken
  have hleft := hgathers.left
  obtain ⟨hgather, hready, -, hheld, hlayout, hblanks, hcount⟩ := hgathers
  have hstride : min r.layout.stride r.unread.length = r.layout.stride := by
    rw [hunread, List.length_append, hx.length_eq]
    omega
  rw [hstride] at hgather hheld htaken hleft
  have hraw : r₁.buffer.pending.take r.layout.stride = x.raw := by
    rw [htaken, hunread, ← hx.length_eq, List.take_left]
  refine ⟨{ r₁ with buffer := r₁.buffer.consume r.layout.stride, count := r₁.count + 1 }, ?_,
    ⟨hready.sound.consume hheld, hready.quiet, hready.room, hready.exhausted⟩, ?_, hlayout, hblanks,
    congrArg (· + 1) hcount⟩
  · rw [next, hgather]
    dsimp only
    rw [if_neg hx.some_stride, if_neg (by rw [hlayout]; exact Nat.lt_irrefl _), hraw, hlayout,
      hblanks, hcount, ← hx.fields_eq, ← hwhole]
  · refine hleft.trans ?_
    rw [hunread, ← hx.length_eq, List.drop_left]

/-- **Records of one stride each are read one after another.** -/
theorem delivers_renumber {r : FixedReader} (h : r.Ready) {xs : List Record}
    (hxs : ∀ x ∈ xs, x.shortfall = none ∧ x.Fixed r.layout r.preserveBlanks)
    (hunread : r.unread = (xs.map Record.raw).flatten) :
    (RecordReader.fixed r).Delivers (Record.renumber r.count xs) (.ok ()) := by
  induction xs generalizing r with
  | nil =>
    obtain ⟨r₁, hgather, -⟩ := h.gathers
    refine ⟨_, .fixed r₁, .nil _, ?_⟩
    rw [RecordReader.next, FixedReader.next, hgather, hunread, List.map_nil, List.flatten_nil,
      List.length_nil, Nat.min_zero]
    rfl
  | cons x xs ih =>
    obtain ⟨⟨hwhole, hx⟩, hxs⟩ := List.forall_mem_cons.mp hxs
    rw [List.map_cons, List.flatten_cons] at hunread
    obtain ⟨r', hnext, hready, hrest, hlayout, hblanks, hcount⟩ :=
      h.next_of_append hwhole hx hunread
    rw [← hlayout, ← hblanks] at hxs
    obtain ⟨last, final, hyields, hend⟩ := ih hready hxs hrest
    rw [hcount] at hyields
    refine ⟨last, final, .cons ?_ hyields, hend⟩
    rw [RecordReader.next, hnext]

end FixedReader
end Intake
