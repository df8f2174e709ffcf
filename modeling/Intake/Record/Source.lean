import Intake.Error
/-!
# Sources

Where records come from: a stream of bytes, or rows from outside. A
stream hands its bytes out in pieces whose sizes it chooses itself, and a
read of it can be interrupted before any byte moves; both are part of the
stream here, so that it can be said that neither matters.
-/

namespace Intake

/-- What a stream does with one read. -/
inductive Cut where
  /-- The read is interrupted and must be repeated. -/
  | interrupted
  /-- At most this many bytes are handed out, but never none. -/
  | atMost (count : Nat)
  deriving DecidableEq, Repr

/-- A stream of bytes. -/
structure ByteSource where
  /-- What has not been handed out yet. -/
  rest : Bytes
  /-- How the next reads are cut; later ones are not. -/
  cuts : List Cut := []
  /-- What reads fail with at the end, if it is not just the end. -/
  failure : Option String := none
  deriving DecidableEq, Repr

/-- What one read yields. -/
inductive Delivery where
  /-- Bytes, at least one. -/
  | bytes (bs : Bytes)
  | ended
  | failed (e : IoError)
  deriving DecidableEq, Repr

namespace ByteSource

/-- The cuts after the interruptions at their front, which are repeated
without a trace. -/
def settle : List Cut → List Cut
  | .interrupted :: cuts => settle cuts
  | cuts => cuts

/-- Reads at most `room` bytes, of which there is at least one. -/
def read (s : ByteSource) (room : Nat) : Delivery × ByteSource :=
  if s.rest.isEmpty then
    match s.failure with
    | none => (.ended, s)
    | some text => (.failed (.other text), s)
  else
    match settle s.cuts with
    | .atMost count :: cuts =>
      let size := min (max count 1) room
      (.bytes (s.rest.take size), { s with rest := s.rest.drop size, cuts := cuts })
    | _ => (.bytes (s.rest.take room), { s with rest := s.rest.drop room, cuts := [] })

/-- A read hands out the bytes in order and loses none. -/
theorem read_bytes {s : ByteSource} {room : Nat} {bs : Bytes} {s' : ByteSource}
    (h : s.read room = (.bytes bs, s')) : s.rest = bs ++ s'.rest := by
  unfold read at h
  split at h
  · split at h <;> simp at h
  · split at h <;>
      (simp only [Prod.mk.injEq, Delivery.bytes.injEq] at h
       obtain ⟨rfl, rfl⟩ := h
       simp)

/-- A read into some room hands out at least one byte. -/
theorem read_ne_nil {s : ByteSource} {room : Nat} (hr : 0 < room) {bs : Bytes}
    {s' : ByteSource} (h : s.read room = (.bytes bs, s')) : bs ≠ [] := by
  unfold read at h
  split at h
  · split at h <;> simp at h
  · rename_i hne
    have hrest : s.rest ≠ [] := by simpa using hne
    split at h <;>
      (simp only [Prod.mk.injEq, Delivery.bytes.injEq] at h
       obtain ⟨rfl, -⟩ := h
       simp only [ne_eq, List.take_eq_nil_iff, not_or]
       exact ⟨by omega, hrest⟩)

/-- A read at the end changes nothing. -/
theorem read_ended {s : ByteSource} {room : Nat} {s' : ByteSource}
    (h : s.read room = (.ended, s')) : s' = s := by
  unfold read at h
  split at h
  · split at h
    · simpa using h.symm
    · simp at h
  · split at h <;> simp at h

end ByteSource

/-- A row from outside: the bytes of each field, or none for NULL. -/
abbrev SourceRow := List (Option Bytes)

/-- Rows from outside, in order; in the place of a row may stand a
failure, after which the next ones still come. -/
abbrev RowSource := List (Except StorageError SourceRow)

/-- Where the records of a load come from. -/
inductive Source where
  | bytes (s : ByteSource)
  | rows (s : RowSource)

end Intake
