import Intake.Proofs.Record.Filling
/-!
# What passes through a buffer

A buffer is filled, a byte is put behind what it holds, and bytes are
taken off its front, in any order, no more of them than there are. Each
fill is handed a source, which need not be the one that an earlier fill
left: a stream that fails and then goes on, or has more to give after its
end, is among what is spoken of here.

`Custody` keeps, beside the buffer, every byte that arrived and every
byte that was consumed. The law (`custody_faithful`): after any calls the
pending bytes are those that arrived and were not consumed, in the order
of the calls, and the next call does what it says. The arena is slid and
grown under way; the law says exactly when it grows, and when it may not
grow any more.
-/

namespace Intake

namespace Buffer

/-! ## Calls -/

/-- What is asked of a buffer. -/
inductive Call where
  /-- To be filled from a source, for a record of some number. -/
  | fill (source : ByteSource) (record : Nat)
  /-- To put a byte behind what is pending. -/
  | terminate (byte : UInt8) (record : Nat)
  /-- To take bytes off the front. -/
  | consume (count : Nat)

/-- A buffer, with what has passed through it. -/
structure Custody where
  buffer : Buffer
  /-- Every byte that a source delivered and every terminator, in order. -/
  arrived : Bytes := []
  /-- Every byte that was consumed, in order. -/
  consumed : Bytes := []
  /-- A source has reported its end. -/
  heard : Bool := false

namespace Custody

/-- A call may consume what is pending and no more. -/
def Permits (x : Custody) : Call → Prop
  | .fill .. => True
  | .terminate .. => True
  | .consume n => n ≤ x.buffer.pending.length

/-- What a call does to the buffer and to the books. -/
def call (x : Custody) : Call → Custody
  | .fill s record =>
    { buffer := (x.buffer.fill s record).buffer
      arrived := x.arrived ++ x.buffer.delivered s record
      consumed := x.consumed
      heard := x.heard || decide (x.buffer.reply s record = some .ended) }
  | .terminate byte record =>
    match x.buffer.terminate byte record with
    | (.error _, b) => { x with buffer := b }
    | (.ok (), b) => { x with buffer := b, arrived := x.arrived ++ [byte] }
  | .consume n =>
    { x with
      buffer := x.buffer.consume n
      consumed := x.consumed ++ x.buffer.pending.take n }

/-- Calls one after another. -/
def calls (x : Custody) (cs : List Call) : Custody := cs.foldl call x

/-- Each call may be made when it is. -/
def PermitsAll (x : Custody) : List Call → Prop
  | [] => True
  | c :: cs => x.Permits c ∧ (x.call c).PermitsAll cs

instance (x : Custody) : DecidablePred x.Permits
  | .fill .. => inferInstanceAs (Decidable True)
  | .terminate .. => inferInstanceAs (Decidable True)
  | .consume n => inferInstanceAs (Decidable (n ≤ x.buffer.pending.length))

instance decidablePermitsAll (x : Custody) : DecidablePred x.PermitsAll
  | [] => inferInstanceAs (Decidable True)
  | c :: cs =>
    have := (x.call c).decidablePermitsAll cs
    inferInstanceAs (Decidable (x.Permits c ∧ (x.call c).PermitsAll cs))

/-! ## In order -/

/-- The books agree with the buffer, and its arena may grow to a limit. -/
structure InOrder (limit : Nat) (x : Custody) : Prop where
  sound : x.buffer.Sound
  placed : x.buffer.Placed
  max_eq : x.buffer.max = limit
  arrived_eq : x.arrived = x.consumed ++ x.buffer.pending
  ended_eq : x.buffer.ended = x.heard

variable {limit : Nat} {x : Custody}

/-- A fill that does not ask its source leaves everything as it is. -/
theorem call_fill_of_unasked {s : ByteSource} {record : Nat}
    (hoffer : x.buffer.offer record = none) (hbuffer : (x.buffer.fill s record).buffer = x.buffer) :
    x.call (.fill s record) = x := by
  simp only [call, hbuffer, delivered_of_unasked hoffer, reply_of_unasked hoffer, List.append_nil,
    reduceCtorEq, decide_false, Bool.or_false]

theorem InOrder.fill (h : x.InOrder limit) (s : ByteSource) (record : Nat) :
    (x.call (.fill s record)).InOrder limit := by
  obtain ⟨hsound, hmax⟩ := h.sound.filled s record
  cases h.sound.filling s record with
  | told _ hoffer hfill =>
    rw [call_fill_of_unasked hoffer (by rw [hfill])]
    exact h
  | full _ _ hoffer hfill =>
    rw [call_fill_of_unasked hoffer (by rw [hfill])]
    exact h
  | asked b' room _ _ hmake hroomy _ _ hoffer hfill =>
    rw [hfill] at hsound hmax
    simp only [call, hfill, delivered_of_offer hoffer, reply_of_offer hoffer, Option.some.injEq]
    refine ⟨hsound, (h.placed.made hmake).receive _, hmax.trans h.max_eq, ?_, ?_⟩
    · rw [pending_receive, hroomy.pending_eq, h.arrived_eq, List.append_assoc]
    · rw [ended_receive, hroomy.ended_eq, h.ended_eq]

theorem InOrder.terminate (h : x.InOrder limit) (byte : UInt8) (record : Nat) :
    (x.call (.terminate byte record)).InOrder limit := by
  obtain ⟨hsound, hmax⟩ := h.sound.terminated byte record
  cases h.sound.making record with
  | full _ hmake =>
    simp only [call, terminate_of_full hmake]
    exact h
  | made b' _ hmake hroomy =>
    have hplaced := h.placed.made hmake
    rw [terminate_of_made hmake] at hsound hmax
    simp only [call, terminate_of_made hmake]
    refine ⟨hsound, hplaced, hmax.trans h.max_eq, ?_, ?_⟩
    · rw [pending_push, hroomy.pending_eq, h.arrived_eq, List.append_assoc]
    · rw [ended_push, hroomy.ended_eq, h.ended_eq]

theorem InOrder.consume (h : x.InOrder limit) {n : Nat} (hn : n ≤ x.buffer.pending.length) :
    (x.call (.consume n)).InOrder limit where
  sound := h.sound.consume hn
  placed := h.placed.consume hn
  max_eq := h.max_eq
  arrived_eq := by
    show x.arrived = x.consumed ++ x.buffer.pending.take n ++ (x.buffer.consume n).pending
    rw [pending_consume, List.append_assoc, List.take_append_drop, h.arrived_eq]
  ended_eq := h.ended_eq

/-- One call keeps everything in order. -/
theorem InOrder.call (h : x.InOrder limit) {c : Call} (hc : x.Permits c) :
    (x.call c).InOrder limit := by
  cases c with
  | fill s record => exact h.fill s record
  | terminate byte record => exact h.terminate byte record
  | consume n => exact h.consume hc

/-- So do all calls. -/
theorem InOrder.calls (h : x.InOrder limit) {cs : List Call} (hcs : x.PermitsAll cs) :
    (x.calls cs).InOrder limit := by
  induction cs generalizing x with
  | nil => exact h
  | cons c cs ih => exact ih (h.call hcs.1) hcs.2

/-- A new buffer is in order. -/
theorem inOrder_start (size limit : Nat) :
    InOrder (Max.max 2 (Max.max size limit)) { buffer := ofSizes size limit } where
  sound := sound_ofSizes size limit
  placed := rfl
  max_eq := max_ofSizes size limit
  arrived_eq := rfl
  ended_eq := rfl

/-! ## What the next call does -/

/-- A buffer that may grow to a limit serves as one: what is pending is
what arrived and was not consumed, it is where the two places say, and
the next call, whichever it is and whatever source it is handed, does
what it says. -/
structure Faithful (limit : Nat) (x : Custody) : Prop where
  cursor_le : x.buffer.cursor ≤ x.buffer.used
  used_lt : x.buffer.used < x.buffer.capacity
  capacity_le : x.buffer.capacity ≤ limit
  arrived_eq : x.arrived = x.consumed ++ x.buffer.pending
  slice_eq : x.buffer.slice x.buffer.cursor x.buffer.used = x.buffer.pending
  ended_eq : x.buffer.ended = x.heard
  /-- A fill asks its source while there is room and the end has not been
  reported. -/
  offer_isSome_iff : ∀ record, (x.buffer.offer record).isSome ↔
    x.heard = false ∧ x.buffer.pending.length ≠ limit - 1
  /-- It never offers a place for no byte, and passes on what the source
  says to its offer. -/
  fill_asked : ∀ s record room, x.buffer.offer record = some room →
    0 < room ∧ (x.buffer.fill s record).outcome = (s.read room).1.outcome ∧
      (x.buffer.fill s record).source = (s.read room).2
  /-- The bytes that are delivered come off the source, and no others. -/
  fill_rest : ∀ s record,
    s.rest = x.buffer.delivered s record ++ (x.buffer.fill s record).source.rest
  /-- A fill adds nothing, and does not fail, only after the end of the
  input. -/
  fill_nil_iff : ∀ s record, (x.buffer.fill s record).outcome = .ok [] ↔
    x.heard = true ∨ ((x.buffer.offer record).isSome ∧ s.rest = [] ∧ s.failure = none)
  /-- A read that fails takes nothing away from what is pending and adds
  nothing to it. -/
  fill_failed : ∀ s record e, (x.buffer.fill s record).outcome = .error (.io e) →
    (x.buffer.fill s record).buffer.pending = x.buffer.pending
  /-- A fill finds the arena full exactly where all but one of the bytes
  that it may hold are pending and there may still be more to come. -/
  fill_tooLarge_iff : ∀ s record n most,
    (x.buffer.fill s record).outcome = .error (.recordTooLarge n most) ↔
      (x.heard = false ∧ x.buffer.pending.length = limit - 1) ∧ n = record ∧ most = limit
  /-- Then nothing changes. -/
  fill_tooLarge : ∀ s record n most,
    (x.buffer.fill s record).outcome = .error (.recordTooLarge n most) →
      (x.buffer.fill s record).buffer = x.buffer ∧ (x.buffer.fill s record).source = s
  /-- A terminator does so whether there is more to come or not, and never
  fails for anything else. -/
  terminate_outcome : ∀ byte record, (x.buffer.terminate byte record).1 =
    if x.buffer.pending.length = limit - 1 then .error (.recordTooLarge record limit) else .ok ()
  terminate_tooLarge : ∀ byte record, x.buffer.pending.length = limit - 1 →
    (x.buffer.terminate byte record).2 = x.buffer
  /-- The arena grows where its bytes start at its front and fill it, and
  nowhere else. -/
  fill_capacity : ∀ s record, (x.buffer.fill s record).buffer.capacity =
    if x.heard = false ∧ x.buffer.cursor = 0 ∧ x.buffer.pending.length = x.buffer.capacity - 1
    then min (2 * x.buffer.capacity) limit else x.buffer.capacity
  terminate_capacity : ∀ byte record, (x.buffer.terminate byte record).2.capacity =
    if x.buffer.cursor = 0 ∧ x.buffer.pending.length = x.buffer.capacity - 1
    then min (2 * x.buffer.capacity) limit else x.buffer.capacity
  consume_capacity : ∀ n, (x.buffer.consume n).capacity = x.buffer.capacity

theorem InOrder.faithful (h : x.InOrder limit) : x.Faithful limit := by
  obtain ⟨hsound, hplaced, rfl, harrived, hended⟩ := h
  have hused := hsound.used_eq
  exact {
    cursor_le := by omega
    used_lt := hsound.used_lt
    capacity_le := hsound.capacity_le
    arrived_eq := harrived
    slice_eq := hsound.slice_pending hplaced
    ended_eq := hended
    offer_isSome_iff := fun record => by rw [← hended]; exact hsound.offer_isSome_iff record
    fill_asked := fun s _ _ hoffer => hsound.fill_asked hoffer s
    fill_rest := hsound.fill_rest
    fill_nil_iff := fun s record => by rw [← hended]; exact hsound.fill_nil_iff s record
    fill_failed := fun _ _ _ => hsound.fill_failed
    fill_tooLarge_iff := fun s record n most => by
      rw [← hended]; exact hsound.fill_tooLarge_iff s record n most
    fill_tooLarge := fun _ _ _ _ => hsound.fill_tooLarge
    terminate_outcome := hsound.terminate_outcome
    terminate_tooLarge := fun _ _ => hsound.terminate_tooLarge
    fill_capacity := fun s record => by rw [← hended]; exact hsound.fill_capacity_eq s record
    terminate_capacity := hsound.terminate_capacity_eq
    consume_capacity := fun _ => rfl }

end Custody

/-- Whatever a new buffer is asked for, in whatever order and from
whatever sources, as long as no more is consumed than is pending, it
stays faithful to the greatest of its sizes. -/
theorem custody_faithful (size limit : Nat) {cs : List Call}
    (h : Custody.PermitsAll { buffer := ofSizes size limit } cs) :
    (Custody.calls { buffer := ofSizes size limit } cs).Faithful
      (Max.max 2 (Max.max size limit)) :=
  ((Custody.inOrder_start size limit).calls h).faithful

/-- The arena grows from three bytes to six and then, as it may not
double again, to seven, which a fifth fill finds too few. A read that
fails has it slid, and nothing is read after the end. -/
def crowded : List Call :=
  -- of three bytes two are offered, and of six three
  [.fill { rest := Bytes.ascii "abcdefgh", cuts := [.interrupted, .atMost 5] } 1,
    .fill { rest := Bytes.ascii "cdefgh", cuts := [.atMost 2] } 1,
    .fill { rest := Bytes.ascii "efgh" } 1,
    -- the last byte that there is room for, and one too many
    .fill { rest := Bytes.ascii "fgh" } 1,
    .fill { rest := Bytes.ascii "gh" } 1,
    .consume 4,
    .fill { rest := [], failure := some "device not ready" } 2,
    .fill { rest := Bytes.ascii "gh" } 2,
    .fill { rest := [] } 2,
    .fill { rest := Bytes.ascii "i" } 2,
    .terminate 0x0A 2,
    .consume 1]

theorem custody_faithful_crowded :
    let start : Custody := { buffer := ofSizes 3 7 }
    start.PermitsAll crowded ∧
      (start.calls crowded).arrived = Bytes.ascii "abcdefgh\n" ∧
      (start.calls crowded).buffer.pending = Bytes.ascii "fgh\n" ∧
      (start.calls crowded).buffer.capacity = 7 ∧
      (start.calls crowded).Faithful 7 := by
  intro start
  have hpermitted : start.PermitsAll crowded := by decide +kernel
  exact ⟨hpermitted, by decide +kernel, by decide +kernel, by decide +kernel,
    custody_faithful 3 7 hpermitted⟩

end Buffer
end Intake
