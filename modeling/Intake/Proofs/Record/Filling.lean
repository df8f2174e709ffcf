import Intake.Proofs.Record.Arena
/-!
# One fill, one terminator

What a fill comes to, whatever its source does, and what becomes of a
byte that is put behind the pending ones: how much room a source is
offered (`offer`), what it says to that (`reply`) and what the buffer
makes of it (`receive`).

Both make room first, and that is the one case analysis there is
(`Sound.making`): either all but one of the bytes that the arena may hold
are pending and nothing changes, or there is room for a byte and the one
that is kept free. A fill adds to it what its source says
(`Sound.filling`), and every law of a fill is read off that.
-/

namespace Intake

/-! ## What a source says -/

namespace Delivery

/-- The bytes that come with it. -/
def content : Delivery → Bytes
  | bytes bs => bs
  | ended | failed _ => []

/-- What it is to the one who asked. -/
def outcome : Delivery → Except LoadError Bytes
  | bytes bs => .ok bs
  | ended => .ok []
  | failed e => .error (.io e)

/-- No source knows how large a record may be. -/
theorem outcome_ne_tooLarge (d : Delivery) (record most : Nat) :
    d.outcome ≠ .error (.recordTooLarge record most) := by
  cases d <;> exact nofun

end Delivery

namespace ByteSource

variable {s : ByteSource} {room : Nat}

/-- A read that fails changes nothing. -/
theorem read_failed {e : IoError} {s' : ByteSource} (h : s.read room = (.failed e, s')) :
    s' = s := by
  unfold read at h
  split at h
  · split at h
    · cases h
    · cases h
      rfl
  · split at h <;> cases h

/-- No more is handed out than there is room for. -/
theorem length_content_read (s : ByteSource) (room : Nat) :
    (s.read room).1.content.length ≤ room := by
  unfold read
  split
  · split <;> exact Nat.zero_le _
  · split
    · show (s.rest.take _).length ≤ room
      rw [List.length_take]
      omega
    · show (s.rest.take room).length ≤ room
      rw [List.length_take]
      omega

/-- What a read hands out is what the source has no longer. -/
theorem rest_eq_content_append (s : ByteSource) (room : Nat) :
    s.rest = (s.read room).1.content ++ (s.read room).2.rest := by
  rcases hread : s.read room with ⟨bs | _ | e, s'⟩
  · exact read_bytes hread
  · rw [read_ended hread]
    rfl
  · rw [read_failed hread]
    rfl

/-- A source reports its end where it has nothing left and does not fail
for it. -/
theorem read_eq_ended_iff (s : ByteSource) (room : Nat) :
    (s.read room).1 = .ended ↔ s.rest = [] ∧ s.failure = none := by
  unfold read
  cases hrest : s.rest with
  | nil => cases s.failure <;> simp
  | cons x xs =>
    simp only [List.isEmpty_cons, Bool.false_eq_true, if_false, reduceCtorEq, false_and, iff_false]
    split <;> exact nofun

/-- Where there is room, only a source at its end adds nothing. -/
theorem outcome_read_eq_nil_iff (hroom : 0 < room) :
    (s.read room).1.outcome = .ok [] ↔ s.rest = [] ∧ s.failure = none := by
  rw [← s.read_eq_ended_iff room]
  rcases hread : s.read room with ⟨bs | _ | e, s'⟩
  · simpa [Delivery.outcome] using read_ne_nil hroom hread
  · simp [Delivery.outcome]
  · simp [Delivery.outcome]

end ByteSource

namespace Buffer

variable {b b' : Buffer} {s : ByteSource} {record : Nat}

/-! ## Where the bytes stand -/

/-- The bytes before the cursor are all there. -/
def Placed (b : Buffer) : Prop := b.behind.length = b.cursor

theorem Placed.consume (h : b.Placed) {n : Nat} (hn : n ≤ b.pending.length) :
    (b.consume n).Placed := by
  show ((b.pending.take n).reverse ++ b.behind).length = b.cursor + n
  rw [List.length_append, List.length_reverse, List.length_take, Nat.min_eq_left hn, h,
    Nat.add_comm]

theorem Placed.grow (h : b.Placed) (record : Nat) : (b.grow record).2.Placed := by
  unfold Buffer.grow
  split
  · exact h
  · exact h

/-- A byte that is slid over is let go of with its place. -/
theorem Placed.makeRoom (h : b.Placed) (record : Nat) : (b.makeRoom record).2.Placed := by
  have hslide : b.slide.Placed := rfl
  unfold Buffer.makeRoom
  split
  · exact h
  dsimp only
  by_cases hc : b.cursor = 0
  · rw [if_pos hc]
    split
    · exact h
    · exact h.grow record
  · rw [if_neg hc]
    split
    · exact hslide
    · exact hslide.grow record

theorem Placed.made (h : b.Placed) {out : Except LoadError Unit}
    (hmake : b.makeRoom record = (out, b')) : b'.Placed := by
  have hmade := h.makeRoom record
  rwa [hmake] at hmade

/-- The pending bytes are what stands in the arena from the cursor to the
end of what has been read. -/
theorem Sound.slice_pending (h : b.Sound) (hplaced : b.Placed) :
    b.slice b.cursor b.used = b.pending := by
  have hbehind : b.behind.reverse.length = b.cursor := by rw [List.length_reverse, hplaced]
  have hused : (b.behind.reverse ++ b.pending).length = b.used := by
    rw [List.length_append, hbehind, h.used_eq]
  have hwindow : (b.arena.take b.used).drop b.cursor = b.pending := by
    rw [arena, List.take_left' hused, List.drop_left' hbehind]
  have hlength : b.used - b.cursor - b.pending.length = 0 := by
    have hu := h.used_eq
    omega
  rw [slice, hwindow, hlength, List.replicate_zero, List.append_nil]

/-! ## Making room -/

/-- What making room comes to. -/
inductive Making (b : Buffer) (record : Nat) : Prop where
  /-- The arena is full and as large as it may be. -/
  | full (full : b.pending.length + 1 = b.max)
      (make_eq : b.makeRoom record = (.error (.recordTooLarge record b.max), b))
  /-- It was slid or grown, or had room for a byte before. -/
  | made (b' : Buffer) (free : b.pending.length + 1 < b.max)
      (make_eq : b.makeRoom record = (.ok (), b')) (roomy : Roomy b b')

theorem Sound.making (h : b.Sound) (record : Nat) : Making b record := by
  rcases Nat.lt_or_ge (b.pending.length + 1) b.max with hfree | hfull
  · obtain ⟨b', hmake, hroomy⟩ := makeRoom_ok h record hfree
    exact .made b' hfree hmake hroomy
  · have hlt := h.pending_lt
    exact .full (by omega) (makeRoom_full h record hfull)

/-! ## Filling -/

/-- The room that a fill offers to its source, if it asks it at all. -/
def offer (b : Buffer) (record : Nat) : Option Nat :=
  if b.ended then none
  else
    match b.makeRoom record with
    | (.error _, _) => none
    | (.ok (), b) => some (b.capacity - 1 - b.used)

/-- What the source says, if it is asked. -/
def reply (b : Buffer) (s : ByteSource) (record : Nat) : Option Delivery :=
  (b.offer record).map fun room => (s.read room).1

/-- The bytes that the source delivers. -/
def delivered (b : Buffer) (s : ByteSource) (record : Nat) : Bytes :=
  ((b.reply s record).map Delivery.content).getD []

/-- Takes what a source says. -/
def receive (b : Buffer) : Delivery → Buffer
  | .bytes bs => b.push bs
  | .ended => { b with ended := true }
  | .failed _ => b

@[simp] theorem max_receive (b : Buffer) (d : Delivery) : (b.receive d).max = b.max := by
  cases d <;> rfl

@[simp] theorem capacity_receive (b : Buffer) (d : Delivery) :
    (b.receive d).capacity = b.capacity := by
  cases d <;> rfl

@[simp] theorem pending_receive (b : Buffer) (d : Delivery) :
    (b.receive d).pending = b.pending ++ d.content := by
  cases d with
  | bytes bs => exact pending_push b bs
  | ended => exact (List.append_nil _).symm
  | failed e => exact (List.append_nil _).symm

@[simp] theorem ended_receive (b : Buffer) (d : Delivery) :
    (b.receive d).ended = (b.ended || decide (d = .ended)) := by
  cases d <;> simp [receive, push]

theorem Placed.receive (h : b.Placed) (d : Delivery) : (b.receive d).Placed := by
  cases d <;> exact h

theorem Sound.receive (h : b.Sound) {d : Delivery}
    (hroom : b.used + d.content.length < b.capacity) : (b.receive d).Sound := by
  cases d with
  | bytes bs => exact h.push hroom
  | ended => exact ⟨h.two_le, h.capacity_le, h.used_eq, h.used_lt⟩
  | failed e => exact h

/-- What a fill comes to. -/
inductive Filling (b : Buffer) (s : ByteSource) (record : Nat) : Prop where
  /-- The source has reported its end before. -/
  | told (ended : b.ended = true) (offer_eq : b.offer record = none)
      (fill_eq : b.fill s record = ⟨.ok [], b, s⟩)
  /-- There is no room, and it is not asked. -/
  | full (ended : b.ended = false) (full : b.pending.length + 1 = b.max)
      (offer_eq : b.offer record = none)
      (fill_eq : b.fill s record = ⟨.error (.recordTooLarge record b.max), b, s⟩)
  /-- The source is asked for so many bytes at most. -/
  | asked (b' : Buffer) (room : Nat) (ended : b.ended = false)
      (free : b.pending.length + 1 < b.max) (make_eq : b.makeRoom record = (.ok (), b'))
      (roomy : Roomy b b') (room_pos : 0 < room) (room_eq : b'.used + room + 1 = b'.capacity)
      (offer_eq : b.offer record = some room)
      (fill_eq : b.fill s record
        = ⟨(s.read room).1.outcome, b'.receive (s.read room).1, (s.read room).2⟩)

theorem Sound.filling (h : b.Sound) (s : ByteSource) (record : Nat) : Filling b s record := by
  cases hended : b.ended with
  | true => exact .told hended (by simp [offer, hended]) (fill_of_ended hended s record)
  | false =>
    cases h.making record with
    | full hfull hmake =>
      exact .full hended hfull (by simp [offer, hended, hmake])
        (fill_full h hended s record (by omega))
    | made b' hfree hmake hroomy =>
      have hroom := hroomy.room
      refine .asked b' (b'.capacity - 1 - b'.used) hended hfree hmake hroomy (by omega) (by omega)
        (by simp [offer, hended, hmake]) ?_
      unfold fill
      rw [hended, if_neg Bool.false_ne_true, hmake]
      dsimp only
      rcases s.read (b'.capacity - 1 - b'.used) with ⟨bs | _ | e, s'⟩ <;> rfl

/-- A fill leaves the arena in order, also one that fails. -/
theorem Sound.filled (h : b.Sound) (s : ByteSource) (record : Nat) :
    (b.fill s record).buffer.Sound ∧ (b.fill s record).buffer.max = b.max := by
  cases h.filling s record with
  | told _ _ hfill =>
    rw [hfill]
    exact ⟨h, rfl⟩
  | full _ _ _ hfill =>
    rw [hfill]
    exact ⟨h, rfl⟩
  | asked b' room _ _ _ hroomy _ hroom _ hfill =>
    have hlength := s.length_content_read room
    rw [hfill, max_receive, hroomy.max_eq]
    exact ⟨hroomy.sound.receive (by omega), rfl⟩

theorem reply_of_offer {room : Nat} (h : b.offer record = some room) (s : ByteSource) :
    b.reply s record = some (s.read room).1 := by
  rw [reply, h]
  rfl

theorem reply_of_unasked (h : b.offer record = none) (s : ByteSource) :
    b.reply s record = none := by
  rw [reply, h]
  rfl

theorem delivered_of_offer {room : Nat} (h : b.offer record = some room) (s : ByteSource) :
    b.delivered s record = (s.read room).1.content := by
  rw [delivered, reply_of_offer h]
  rfl

theorem delivered_of_unasked (h : b.offer record = none) (s : ByteSource) :
    b.delivered s record = [] := by
  rw [delivered, reply_of_unasked h]
  rfl

/-- A source is asked while there is room and it has not reported its
end. -/
theorem Sound.offer_isSome_iff (h : b.Sound) (record : Nat) :
    (b.offer record).isSome ↔ b.ended = false ∧ b.pending.length ≠ b.max - 1 := by
  unfold offer
  cases hended : b.ended with
  | true => simp
  | false =>
    cases h.making record with
    | full hfull hmake =>
      have hpending : b.pending.length = b.max - 1 := by omega
      simp [hmake, hpending]
    | made b' hfree hmake _ =>
      have hpending : b.pending.length ≠ b.max - 1 := by omega
      simp [hmake, hpending]

/-- It is asked for a byte at least, and what it says is passed on. -/
theorem Sound.fill_asked (h : b.Sound) {room : Nat} (hoffer : b.offer record = some room)
    (s : ByteSource) :
    0 < room ∧ (b.fill s record).outcome = (s.read room).1.outcome ∧
      (b.fill s record).source = (s.read room).2 := by
  cases h.filling s record with
  | told _ hnone _ => exact nomatch hoffer.symm.trans hnone
  | full _ _ hnone _ => exact nomatch hoffer.symm.trans hnone
  | asked b' room' _ _ _ _ hpos _ hsome hfill =>
    cases hoffer.symm.trans hsome
    rw [hfill]
    exact ⟨hpos, rfl, rfl⟩

/-- Only a source that has reported its end, or reports it now, adds
nothing. -/
theorem Sound.fill_nil_iff (h : b.Sound) (s : ByteSource) (record : Nat) :
    (b.fill s record).outcome = .ok [] ↔
      b.ended = true ∨ ((b.offer record).isSome ∧ s.rest = [] ∧ s.failure = none) := by
  cases h.filling s record with
  | told hended _ hfill => simp [hfill, hended]
  | full hended _ hoffer hfill => simp [hfill, hended, hoffer]
  | asked b' room hended _ _ _ hpos _ hoffer hfill =>
    rw [hfill, ByteSource.outcome_read_eq_nil_iff hpos]
    simp [hended, hoffer]

/-- A fill that fails for its source leaves the pending bytes. -/
theorem Sound.fill_failed (h : b.Sound) {e : IoError}
    (hfail : (b.fill s record).outcome = .error (.io e)) :
    (b.fill s record).buffer.pending = b.pending := by
  cases h.filling s record with
  | told _ _ hfill => rw [hfill]
  | full _ _ _ hfill => rw [hfill]
  | asked b' room _ _ _ hroomy _ _ _ hfill =>
    rw [hfill] at hfail ⊢
    rw [pending_receive, hroomy.pending_eq]
    rcases hread : (s.read room).1 with bs | _ | e'
    · rw [hread] at hfail
      cases hfail
    · exact List.append_nil _
    · exact List.append_nil _

/-- A fill finds too little room while all but one of the bytes that the
arena may hold are pending. -/
theorem Sound.fill_tooLarge_iff (h : b.Sound) (s : ByteSource) (record n most : Nat) :
    (b.fill s record).outcome = .error (.recordTooLarge n most) ↔
      (b.ended = false ∧ b.pending.length = b.max - 1) ∧ n = record ∧ most = b.max := by
  cases h.filling s record with
  | told hended _ hfill => simp [hfill, hended]
  | full hended hfull _ hfill =>
    have hpending : b.pending.length = b.max - 1 := by omega
    simp [hfill, hended, hpending, eq_comm]
  | asked b' room _ hfree _ _ _ _ _ hfill =>
    have hpending : b.pending.length ≠ b.max - 1 := by omega
    simp [hfill, hpending, Delivery.outcome_ne_tooLarge]

/-- A fill that finds the arena full leaves it as it is, and its source. -/
theorem Sound.fill_tooLarge (h : b.Sound) {n most : Nat}
    (hfail : (b.fill s record).outcome = .error (.recordTooLarge n most)) :
    (b.fill s record).buffer = b ∧ (b.fill s record).source = s := by
  cases h.filling s record with
  | told _ _ hfill => exact ⟨by rw [hfill], by rw [hfill]⟩
  | full _ _ _ hfill => exact ⟨by rw [hfill], by rw [hfill]⟩
  | asked b' room _ _ _ _ _ _ _ hfill =>
    rw [hfill] at hfail
    exact absurd hfail (Delivery.outcome_ne_tooLarge _ _ _)

/-- What a fill delivers comes off its source. -/
theorem Sound.fill_rest (h : b.Sound) (s : ByteSource) (record : Nat) :
    s.rest = b.delivered s record ++ (b.fill s record).source.rest := by
  cases h.filling s record with
  | told _ hoffer hfill =>
    rw [hfill, delivered_of_unasked hoffer]
    rfl
  | full _ _ hoffer hfill =>
    rw [hfill, delivered_of_unasked hoffer]
    rfl
  | asked b' room _ _ _ _ _ _ hoffer hfill =>
    rw [hfill, delivered_of_offer hoffer]
    exact s.rest_eq_content_append room

/-- The arena of a buffer that is filled grows where making room makes
it. -/
theorem Sound.fill_capacity_eq (h : b.Sound) (s : ByteSource) (record : Nat) :
    (b.fill s record).buffer.capacity =
      if b.ended = false ∧ b.cursor = 0 ∧ b.pending.length = b.capacity - 1
      then min (2 * b.capacity) b.max else b.capacity := by
  have hmade := makeRoom_capacity_eq h record
  cases h.filling s record with
  | told hended _ hfill => simp [hfill, hended]
  | full hended hfull _ hfill =>
    -- at its limit the arena could only grow to the size that it has
    rw [makeRoom_full h record (by omega)] at hmade
    simpa [hfill, hended] using hmade
  | asked b' room hended _ hmake _ _ _ _ hfill =>
    rw [hmake] at hmade
    simpa [hfill, hended] using hmade

/-! ## Terminating -/

theorem terminate_of_full {e : LoadError} (h : b.makeRoom record = (.error e, b'))
    (byte : UInt8) : b.terminate byte record = (.error e, b') := by
  rw [terminate, h]

theorem terminate_of_made (h : b.makeRoom record = (.ok (), b')) (byte : UInt8) :
    b.terminate byte record = (.ok (), b'.push [byte]) := by
  rw [terminate, h]

/-- A terminator leaves the arena in order, also one that does not fit. -/
theorem Sound.terminated (h : b.Sound) (byte : UInt8) (record : Nat) :
    (b.terminate byte record).2.Sound ∧ (b.terminate byte record).2.max = b.max := by
  cases h.making record with
  | full _ hmake =>
    rw [terminate_of_full hmake]
    exact ⟨h, rfl⟩
  | made b' _ hmake hroomy =>
    have hroom := hroomy.room
    rw [terminate_of_made hmake, max_push, hroomy.max_eq]
    refine ⟨hroomy.sound.push ?_, rfl⟩
    rw [List.length_singleton]
    omega

/-- So does a terminator, which fails for nothing else. -/
theorem Sound.terminate_outcome (h : b.Sound) (byte : UInt8) (record : Nat) :
    (b.terminate byte record).1 =
      if b.pending.length = b.max - 1 then .error (.recordTooLarge record b.max) else .ok () := by
  cases h.making record with
  | full hfull hmake =>
    rw [terminate_of_full hmake, if_pos (by omega)]
  | made b' hfree hmake _ =>
    rw [terminate_of_made hmake, if_neg (by omega)]

theorem Sound.terminate_tooLarge (h : b.Sound) {byte : UInt8}
    (hfull : b.pending.length = b.max - 1) : (b.terminate byte record).2 = b := by
  have hlt := h.pending_lt
  rw [terminate_of_full (makeRoom_full h record (by omega))]

theorem Sound.terminate_capacity_eq (h : b.Sound) (byte : UInt8) (record : Nat) :
    (b.terminate byte record).2.capacity =
      if b.cursor = 0 ∧ b.pending.length = b.capacity - 1 then min (2 * b.capacity) b.max
      else b.capacity := by
  have hmade := makeRoom_capacity_eq h record
  cases h.making record with
  | full _ hmake =>
    rw [terminate_of_full hmake]
    rwa [hmake] at hmade
  | made b' _ hmake _ =>
    rw [terminate_of_made hmake]
    rwa [hmake] at hmade

end Buffer
end Intake
