import Intake.Record.Buffer
/-!
# The arena in order

What holds of a record buffer at every moment, and what its operations
do to the bytes that wait in it. The two offsets are pinned by the bytes
(`Sound.used_eq`), so the rest of the development speaks of `pending`
only and never of offsets.

The one number that matters to a reader is the size the arena may grow
to. `makeRoom` succeeds exactly while fewer than `max - 1` bytes are
pending: the arena may be slid or grown on the way, but neither its
size nor where the bytes stand in it decides whether a byte still fits
(`makeRoom_ok`, `makeRoom_full`). That is what makes the outcome of a
read independent of the size the arena started with.
-/

namespace Intake

namespace ByteSource

/-- A read of a source that holds bytes hands some out, whatever is cut
from it: interruptions are repeated without a trace. -/
theorem read_of_rest {s : ByteSource} {room : Nat} (hr : 0 < room) (hs : s.rest ≠ []) :
    ∃ bs s', s.read room = (.bytes bs, s') ∧ bs ≠ [] ∧ bs.length ≤ room ∧
      s.rest = bs ++ s'.rest ∧ s'.failure = s.failure := by
  have hne : s.rest.isEmpty = false := by simpa using hs
  have key : ∃ bs s', s.read room = (.bytes bs, s') ∧ bs.length ≤ room ∧
      s'.failure = s.failure := by
    unfold read
    rw [hne]
    split
    · contradiction
    · split
      · refine ⟨_, _, rfl, ?_, rfl⟩
        simp only [List.length_take]
        omega
      · refine ⟨_, _, rfl, ?_, rfl⟩
        simp only [List.length_take]
        omega
  obtain ⟨bs, s', hread, hlen, hfail⟩ := key
  exact ⟨bs, s', hread, read_ne_nil hr hread, hlen, read_bytes hread, hfail⟩

/-- A read at the end of a source that does not fail reports the end. -/
theorem read_of_nil {s : ByteSource} (room : Nat) (hs : s.rest = []) (hf : s.failure = none) :
    s.read room = (.ended, s) := by
  simp [read, hs, hf]

end ByteSource

namespace Buffer

/-- The arena is in order: it has room for two bytes, it is no larger
than it may be, the offsets enclose the pending bytes, and the byte
after them is free. -/
structure Sound (b : Buffer) : Prop where
  two_le : 2 ≤ b.capacity
  capacity_le : b.capacity ≤ b.max
  used_eq : b.used = b.cursor + b.pending.length
  used_lt : b.used < b.capacity

/-- A new arena is in order, and empty. -/
theorem sound_ofSizes (size limit : Nat) : (ofSizes size limit).Sound where
  two_le := Nat.le_max_right size 2
  capacity_le := Nat.le_max_right limit (Nat.max size 2)
  used_eq := rfl
  used_lt := Nat.lt_of_lt_of_le Nat.two_pos (Nat.le_max_right size 2)

@[simp] theorem pending_ofSizes (size limit : Nat) : (ofSizes size limit).pending = [] := rfl

/-- What the arena may grow to depends on the two sizes only through the
greatest of them, and is two at least. -/
theorem max_ofSizes (size limit : Nat) :
    (ofSizes size limit).max = Max.max 2 (Max.max size limit) := by
  show Max.max limit (Max.max size 2) = Max.max 2 (Max.max size limit)
  omega

/-! ## What each operation keeps -/

@[simp] theorem max_push (b : Buffer) (bs : Bytes) : (b.push bs).max = b.max := rfl
@[simp] theorem ended_push (b : Buffer) (bs : Bytes) : (b.push bs).ended = b.ended := rfl
@[simp] theorem max_consume (b : Buffer) (n : Nat) : (b.consume n).max = b.max := rfl
@[simp] theorem ended_consume (b : Buffer) (n : Nat) : (b.consume n).ended = b.ended := rfl

theorem Sound.push {b : Buffer} (h : b.Sound) {bs : Bytes}
    (hroom : b.used + bs.length < b.capacity) : (b.push bs).Sound where
  two_le := h.two_le
  capacity_le := h.capacity_le
  used_eq := by
    have hu := h.used_eq
    have hp := congrArg List.length (pending_push b bs)
    rw [List.length_append] at hp
    show b.used + bs.length = b.cursor + (b.push bs).pending.length
    omega
  used_lt := hroom

theorem Sound.consume {b : Buffer} (h : b.Sound) {n : Nat} (hn : n ≤ b.pending.length) :
    (b.consume n).Sound where
  two_le := h.two_le
  capacity_le := h.capacity_le
  used_eq := by
    have hu := h.used_eq
    have hp := congrArg List.length (pending_consume b n)
    rw [List.length_drop] at hp
    show b.used = b.cursor + n + (b.consume n).pending.length
    omega
  used_lt := h.used_lt

theorem Sound.slide {b : Buffer} (h : b.Sound) : b.slide.Sound where
  two_le := h.two_le
  capacity_le := h.capacity_le
  used_eq := by
    have hu := h.used_eq
    rw [pending_slide]
    show b.used - b.cursor = 0 + b.pending.length
    omega
  used_lt := by
    have hu := h.used_lt
    show b.used - b.cursor < b.capacity
    omega

/-- Fewer bytes are pending than the arena may hold, by one at least. -/
theorem Sound.pending_lt {b : Buffer} (h : b.Sound) : b.pending.length < b.max := by
  have hu := h.used_eq
  have hl := h.used_lt
  have hc := h.capacity_le
  omega

/-! ## Making room -/

/-- What is left of a buffer that has made room: the bytes that were
pending, and a place for one more with the spare byte after it. -/
structure Roomy (b b' : Buffer) : Prop where
  sound : b'.Sound
  pending_eq : b'.pending = b.pending
  max_eq : b'.max = b.max
  ended_eq : b'.ended = b.ended
  room : b'.used + 2 ≤ b'.capacity

/-- Growing an arena whose bytes start at its front and fill it. -/
theorem grow_roomy {b : Buffer} (h : b.Sound) (record : Nat) (hc : b.cursor = 0)
    (hfull : ¬ 2 ≤ b.capacity - b.used) (hroom : b.pending.length + 1 < b.max) :
    ∃ b', b.grow record = (.ok (), b') ∧ Roomy b b' := by
  have hu := h.used_eq
  have hl := h.used_lt
  have h2 := h.two_le
  unfold grow
  rw [if_neg (by omega)]
  have hgrown : b.capacity + 1 ≤ min (2 * b.capacity) b.max := by omega
  refine ⟨_, rfl, ⟨?_, ?_, hu, ?_⟩, rfl, rfl, rfl, ?_⟩
  · show 2 ≤ min (2 * b.capacity) b.max
    omega
  · exact Nat.min_le_right _ _
  · show b.used < min (2 * b.capacity) b.max
    omega
  · show b.used + 2 ≤ min (2 * b.capacity) b.max
    omega

/-- Sliding an arena whose bytes do not start at its front. -/
theorem slide_roomy {b : Buffer} (h : b.Sound) (hc : b.cursor ≠ 0) : Roomy b b.slide := by
  have hu := h.used_eq
  have hl := h.used_lt
  refine ⟨h.slide, pending_slide b, rfl, rfl, ?_⟩
  show b.used - b.cursor + 2 ≤ b.capacity
  omega

/-- There is room for a byte while fewer than `max - 1` are pending. -/
theorem makeRoom_ok {b : Buffer} (h : b.Sound) (record : Nat)
    (hroom : b.pending.length + 1 < b.max) :
    ∃ b', b.makeRoom record = (.ok (), b') ∧ Roomy b b' := by
  unfold makeRoom
  by_cases hr : b.hasRoom = true
  · rw [if_pos hr]
    have hroom' : 2 ≤ b.capacity - b.used := of_decide_eq_true hr
    exact ⟨b, rfl, h, rfl, rfl, rfl, by omega⟩
  · rw [if_neg hr]
    have hfull : ¬ 2 ≤ b.capacity - b.used := fun hle => hr (decide_eq_true hle)
    by_cases hc : b.cursor = 0
    · simp only [hc, if_true, hr]
      exact grow_roomy h record hc hfull hroom
    · have hs := slide_roomy h hc
      have hr' : b.slide.hasRoom = true := by
        have hle := hs.room
        exact decide_eq_true (by omega)
      simp only [hc, if_false, hr', if_true]
      exact ⟨b.slide, rfl, hs⟩

/-- With `max - 1` bytes pending there is none, and nothing changes. -/
theorem makeRoom_full {b : Buffer} (h : b.Sound) (record : Nat)
    (hfull : b.max ≤ b.pending.length + 1) :
    b.makeRoom record = (.error (.recordTooLarge record b.max), b) := by
  have hu := h.used_eq
  have hl := h.used_lt
  have hcap := h.capacity_le
  have hc : b.cursor = 0 := by omega
  have hr : b.hasRoom = false := decide_eq_false (by omega)
  have hmax : b.max ≤ b.capacity := by omega
  simp [makeRoom, hr, hc, grow, hmax]

/-- **The arena grows exactly where its bytes start at its front and fill
it**, to twice its size or as far as it may. -/
theorem makeRoom_capacity_eq {b : Buffer} (h : b.Sound) (record : Nat) :
    (b.makeRoom record).2.capacity =
      if b.cursor = 0 ∧ b.pending.length = b.capacity - 1 then min (2 * b.capacity) b.max
      else b.capacity := by
  have hu := h.used_eq
  have hl := h.used_lt
  have hle := h.capacity_le
  unfold makeRoom
  by_cases hr : b.hasRoom = true
  · have hroom : 2 ≤ b.capacity - b.used := of_decide_eq_true hr
    rw [if_pos hr, if_neg (by omega)]
  · have hfull : ¬ 2 ≤ b.capacity - b.used := fun hle => hr (decide_eq_true hle)
    rw [if_neg hr]
    by_cases hc : b.cursor = 0
    · have hfills : b.pending.length = b.capacity - 1 := by omega
      simp only [hc, if_true, hr, true_and, hfills, Bool.false_eq_true, if_false]
      unfold grow
      split
      · show b.capacity = _
        omega
      · rfl
    · have hslid : b.slide.hasRoom = true := by
        have hroom := (slide_roomy h hc).room
        exact decide_eq_true (by omega)
      simp only [hc, if_false, hslid, if_true, false_and]
      rfl

/-! ## Filling and terminating -/

/-- A source that has reported its end is not asked again. -/
theorem fill_of_ended {b : Buffer} (he : b.ended = true) (s : ByteSource) (record : Nat) :
    b.fill s record = ⟨.ok [], b, s⟩ := by
  simp [fill, he]

/-- A fill of a full arena fails before the source is asked. -/
theorem fill_full {b : Buffer} (h : b.Sound) (he : b.ended = false) (s : ByteSource)
    (record : Nat) (hfull : b.max ≤ b.pending.length + 1) :
    b.fill s record = ⟨.error (.recordTooLarge record b.max), b, s⟩ := by
  simp [fill, he, makeRoom_full h record hfull]

/-- A fill with room left adds bytes to the pending ones, while there are
any. -/
theorem fill_of_rest {b : Buffer} (h : b.Sound) (he : b.ended = false) {s : ByteSource}
    (record : Nat) (hroom : b.pending.length + 1 < b.max) (hs : s.rest ≠ []) :
    ∃ bs b' s', b.fill s record = ⟨.ok bs, b', s'⟩ ∧ bs ≠ [] ∧ s.rest = bs ++ s'.rest ∧
      s'.failure = s.failure ∧ b'.Sound ∧ b'.pending = b.pending ++ bs ∧ b'.max = b.max ∧
      b'.ended = false := by
  obtain ⟨b₁, hmake, hb₁⟩ := makeRoom_ok h record hroom
  have hroom₁ := hb₁.room
  have hpos : 0 < b₁.capacity - 1 - b₁.used := by omega
  obtain ⟨bs, s', hread, hne, hlen, hrest, hfail⟩ := ByteSource.read_of_rest hpos hs
  refine ⟨bs, b₁.push bs, s', ?_, hne, hrest, hfail, hb₁.sound.push (by omega), ?_, ?_, ?_⟩
  · simp [fill, he, hmake, hread]
  · rw [pending_push, hb₁.pending_eq]
  · rw [max_push, hb₁.max_eq]
  · rw [ended_push, hb₁.ended_eq, he]

/-- A fill at the end of the source only notes the end. -/
theorem fill_of_nil {b : Buffer} (h : b.Sound) (he : b.ended = false) {s : ByteSource}
    (record : Nat) (hroom : b.pending.length + 1 < b.max) (hs : s.rest = [])
    (hf : s.failure = none) :
    ∃ b', b.fill s record = ⟨.ok [], b', s⟩ ∧ b'.Sound ∧ b'.pending = b.pending ∧
      b'.max = b.max ∧ b'.ended = true := by
  obtain ⟨b₁, hmake, hb₁⟩ := makeRoom_ok h record hroom
  refine ⟨{ b₁ with ended := true }, ?_, ?_, hb₁.pending_eq, hb₁.max_eq, rfl⟩
  · simp [fill, he, hmake, ByteSource.read_of_nil _ hs hf]
  · exact ⟨hb₁.sound.two_le, hb₁.sound.capacity_le, hb₁.sound.used_eq, hb₁.sound.used_lt⟩

/-- The byte that the input ends without fits while fewer than `max - 1`
bytes are pending. -/
theorem terminate_ok {b : Buffer} (h : b.Sound) (byte : UInt8) (record : Nat)
    (hroom : b.pending.length + 1 < b.max) :
    ∃ b', b.terminate byte record = (.ok (), b') ∧ b'.Sound ∧
      b'.pending = b.pending ++ [byte] ∧ b'.max = b.max ∧ b'.ended = b.ended := by
  obtain ⟨b₁, hmake, hb₁⟩ := makeRoom_ok h record hroom
  have hroom₁ := hb₁.room
  refine ⟨b₁.push [byte], ?_, hb₁.sound.push ?_, ?_, ?_, ?_⟩
  · simp [terminate, hmake]
  · simp only [List.length_singleton]
    omega
  · rw [pending_push, hb₁.pending_eq]
  · rw [max_push, hb₁.max_eq]
  · rw [ended_push, hb₁.ended_eq]

end Buffer
end Intake
