import Intake.Proofs.Queue.Ring
/-!
# What goes over a queue

The two sides of a queue take turns in any order, each attempt being one
turn: it may be refused because its side is closed, its token tripped or
the bytes too many, it may find too little room or too few bytes, or it
moves all its bytes. The other side may be lost at any time.

`Traffic` keeps, beside the queue, every byte that was ever written and
every byte that was ever read. The law (`traffic_faithful`): after any
turns the bytes on the queue are those written and not read, in the order
of writing, and the next turn does to them what it says.
-/

namespace Intake

namespace Segment

/-! ## Attempts -/

/-- A write that succeeds had room, and stores its parts. -/
theorem write_ok {q q' : Segment} {side : Side} {token : Token} {parts : List Bytes}
    (h : q.write side token parts = (.ok true, q')) :
    parts.flatten.length ≤ q.free ∧ q' = q.store parts.flatten := by
  unfold write at h
  dsimp only at h
  split at h
  · cases h
  · split at h
    · cases h
    · split at h
      · cases h
      · split at h
        next hroom =>
          cases h
          exact ⟨hroom, rfl⟩
        next => cases h

/-- A write that does not succeed changes nothing. -/
theorem write_unchanged {q : Segment} {side : Side} {token : Token} {parts : List Bytes}
    (h : (q.write side token parts).1 ≠ .ok true) : (q.write side token parts).2 = q := by
  unfold write at h ⊢
  dsimp only at h ⊢
  split
  · rfl
  · split
    · rfl
    · split
      · rfl
      · split
        next hopen hsmall _ hpending hroom =>
          rw [if_neg hopen, if_neg hsmall, hpending] at h
          exact absurd (by rw [if_pos hroom]) h
        next => rfl

/-- An open side that is not interrupted writes what there is room for. -/
theorem write_of_fits {q : Segment} {side : Side} {token : Token} {parts : List Bytes}
    (hq : q.Round) (hopen : side.closed = false) (hcalm : token.pending = none)
    (hroom : parts.flatten.length ≤ q.free) :
    q.write side token parts = (.ok true, q.store parts.flatten) := by
  have htwo := hq.two_le
  have hfree := hq.free_eq
  unfold write
  dsimp only
  rw [hopen, if_neg Bool.false_ne_true, if_neg (by omega), hcalm]
  dsimp only
  rw [if_pos hroom]

/-- Nothing is written on behalf of a token that has been tripped. -/
theorem write_of_tripped {q : Segment} {side : Side} {token : Token} {parts : List Bytes}
    {kind : Interrupt} (hopen : side.closed = false) (hpending : token.pending = some kind)
    (hsmall : parts.flatten.length < q.capacity) :
    q.write side token parts = (.error (.interrupted kind), q) := by
  unfold write
  dsimp only
  rw [hopen, if_neg Bool.false_ne_true, if_neg (by omega), hpending]

/-- Where there is too little room a write finds that it has to wait. -/
theorem write_of_full {q : Segment} {side : Side} {token : Token} {parts : List Bytes}
    (hopen : side.closed = false) (hcalm : token.pending = none)
    (hsmall : parts.flatten.length < q.capacity) (hfull : ¬ parts.flatten.length ≤ q.free) :
    q.write side token parts = (.ok false, q) := by
  unfold write
  dsimp only
  rw [hopen, if_neg Bool.false_ne_true, if_neg (by omega), hcalm]
  dsimp only
  rw [if_neg hfull]

/-- The exact condition for a write of an open, uninterrupted side. -/
theorem write_ok_iff {q : Segment} {side : Side} {token : Token} {parts : List Bytes}
    (hq : q.Round) (hopen : side.closed = false) (hcalm : token.pending = none) :
    (q.write side token parts).1 = .ok true ↔ parts.flatten.length ≤ q.free := by
  constructor
  · intro h
    exact (write_ok (Prod.ext h rfl : q.write side token parts = (.ok true, _))).1
  · intro h
    rw [write_of_fits hq hopen hcalm h]

/-- A read that succeeds found its bytes, and takes them off the front. -/
theorem read_ok {q q' : Segment} {side : Side} {token : Token} {n : Nat} {bs : Bytes}
    (h : q.read side token n = (.ok (some bs), q')) :
    n ≤ q.used ∧ bs = q.contents.take n ∧ q' = (q.take n).2 := by
  have hlook : q.look side token n = (.ok (some bs), q') := by
    unfold read at h
    split at h
    · split at h
      · cases h
      · cases h
    · exact h
  unfold look at hlook
  split at hlook
  · cases hlook
  · split at hlook
    · cases hlook
    · split at hlook
      · cases hlook
      · split at hlook
        next hn =>
          cases hlook
          exact ⟨hn, take_fst hn, rfl⟩
        next => cases hlook

/-- An open side that is not interrupted reads bytes that are all there. -/
theorem read_of_fits {q : Segment} {side : Side} {token : Token} {n : Nat} (hq : q.Round)
    (hopen : side.closed = false) (hcalm : token.pending = none) (hn : n ≤ q.used) :
    q.read side token n = (.ok (some (q.contents.take n)), (q.take n).2) := by
  have hlt := hq.used_lt
  have hlook : q.look side token n = (.ok (some (q.take n).1), (q.take n).2) := by
    rw [look, hopen, if_neg Bool.false_ne_true, if_neg (by omega), hcalm]
    dsimp only
    rw [if_pos hn]
  rw [read, hlook, take_fst hn]

/-- Where some bytes are still to come, a look finds nothing and the
reader goes on waiting while there is someone to write them. -/
theorem read_of_short {q : Segment} {side : Side} {token : Token} {n : Nat}
    (hopen : side.closed = false) (hcalm : token.pending = none) (hlives : q.producerLives = true)
    (hn : q.used < n) (hcap : n < q.capacity) : q.read side token n = (.ok none, q) := by
  have hlook : q.look side token n = (.ok none, q) := by
    rw [look, hopen, if_neg Bool.false_ne_true, if_neg (by omega), hcalm]
    dsimp only
    rw [if_neg (by omega)]
  rw [read, hlook]
  dsimp only
  rw [probe, if_pos hlives]

/-- Nothing is read on behalf of a token that has been tripped. -/
theorem read_of_tripped {q : Segment} {side : Side} {token : Token} {n : Nat} {kind : Interrupt}
    (h : token.pending = some kind) : ∃ e, q.read side token n = (.error e, q) := by
  have hlook : ∃ e, q.look side token n = (.error e, q) := by
    unfold look
    split
    · exact ⟨_, rfl⟩
    · split
      · exact ⟨_, rfl⟩
      · rw [h]
        exact ⟨_, rfl⟩
  obtain ⟨e, he⟩ := hlook
  exact ⟨e, by rw [read, he]⟩

/-- The exact condition for a read of an open, uninterrupted side. -/
theorem read_ok_iff {q : Segment} {side : Side} {token : Token} {n : Nat} (hq : q.Round)
    (hopen : side.closed = false) (hcalm : token.pending = none) :
    (∃ bs, (q.read side token n).1 = .ok (some bs)) ↔ n ≤ q.used := by
  constructor
  · intro ⟨bs, h⟩
    exact (read_ok (Prod.ext h rfl : q.read side token n = (.ok (some bs), _))).1
  · intro hn
    exact ⟨_, by rw [read_of_fits hq hopen hcalm hn]⟩

/-- A look that takes no bytes changes nothing. -/
theorem look_unchanged {q : Segment} {side : Side} {token : Token} {n : Nat}
    (h : ∀ bs, (q.look side token n).1 ≠ .ok (some bs)) : (q.look side token n).2 = q := by
  unfold look at h ⊢
  split
  · rfl
  · split
    · rfl
    · split
      · rfl
      · split
        next hopen hsmall _ hpending hn =>
          rw [if_neg hopen, if_neg hsmall, hpending] at h
          exact absurd (by rw [if_pos hn]) (h (q.take n).1)
        next => rfl

/-- A read that takes no bytes changes nothing. -/
theorem read_unchanged {q : Segment} {side : Side} {token : Token} {n : Nat}
    (h : ∀ bs, (q.read side token n).1 ≠ .ok (some bs)) : (q.read side token n).2 = q := by
  obtain ⟨outcome, q', hlook⟩ : ∃ outcome q', q.look side token n = (outcome, q') := ⟨_, _, rfl⟩
  have hsame : (∀ bs, outcome ≠ .ok (some bs)) → q' = q := by
    intro hne
    have hlooked : (q.look side token n).2 = q := look_unchanged (by
      rw [hlook]
      exact hne)
    rw [hlook] at hlooked
    exact hlooked
  unfold read at h ⊢
  rw [hlook] at h ⊢
  cases outcome with
  | error e => exact hsame (fun bs hbs => nomatch hbs)
  | ok found =>
    cases found with
    | some bs => exact absurd rfl (h bs)
    | none =>
      dsimp only
      split
      · exact hsame (fun bs hbs => nomatch hbs)
      · exact hsame (fun bs hbs => nomatch hbs)

end Segment

/-! ## Turns -/

/-- One turn of one of the two sides. A side may have been closed and its
token tripped by any time. -/
inductive Turn where
  | write (side : Side) (token : Token) (parts : List Bytes)
  | read (side : Side) (token : Token) (n : Nat)
  /-- A side closes. -/
  | close (side : Side)
  /-- The writing process ends. -/
  | lose (pid : Nat)

/-- A queue and the bytes that have gone over it. -/
structure Traffic where
  queue : Segment
  /-- The bytes of all successful writes, in order. -/
  written : Bytes := []
  /-- The bytes of all successful reads, in order. -/
  taken : Bytes := []

namespace Traffic

/-- The traffic after one more turn. -/
def turn (t : Traffic) : Turn → Traffic
  | .write side token parts =>
    match t.queue.write side token parts with
    | (.ok true, q) => { t with queue := q, written := t.written ++ parts.flatten }
    | (_, q) => { t with queue := q }
  | .read side token n =>
    match t.queue.read side token n with
    | (.ok (some bs), q) => { t with queue := q, taken := t.taken ++ bs }
    | (_, q) => { t with queue := q }
  | .close side => { t with queue := (t.queue.close side).2 }
  | .lose pid => { t with queue := t.queue.loseProducer pid }

/-- The traffic after some turns. -/
def turns (t : Traffic) (ts : List Turn) : Traffic := ts.foldl turn t

/-- The queue is in order and holds what has been written and not read. -/
structure InOrder (capacity : Nat) (t : Traffic) : Prop where
  round : t.queue.Round
  capacity_eq : t.queue.capacity = capacity
  written_eq : t.written = t.taken ++ t.queue.contents

/-- A turn that moves no bytes leaves all in order. -/
theorem InOrder.still {capacity : Nat} {t : Traffic} (h : t.InOrder capacity) {q : Segment}
    (hhead : q.head = t.queue.head) (htail : q.tail = t.queue.tail)
    (hdata : q.data = t.queue.data) (hcap : q.capacity = t.queue.capacity) :
    ({ t with queue := q } : Traffic).InOrder capacity where
  round := by
    refine ⟨?_, ?_, ?_, ?_⟩
    · rw [hcap]
      exact h.round.two_le
    · rw [hhead, hcap]
      exact h.round.head_lt
    · rw [htail, hcap]
      exact h.round.tail_lt
    · rw [hdata, hcap]
      exact h.round.size_le
  capacity_eq := hcap.trans h.capacity_eq
  written_eq := by
    have hsame : q.contents = t.queue.contents := by
      unfold Segment.contents Segment.used Segment.byteAt
      rw [hhead, htail, hdata, hcap]
    rw [hsame]
    exact h.written_eq

/-- One turn keeps the queue in order. -/
theorem InOrder.turn {capacity : Nat} {t : Traffic} (h : t.InOrder capacity) (action : Turn) :
    (t.turn action).InOrder capacity := by
  cases action with
  | write side token parts =>
    unfold Traffic.turn
    dsimp only
    split
    next q hwrite =>
      obtain ⟨hroom, rfl⟩ := Segment.write_ok hwrite
      refine ⟨h.round.store _, h.capacity_eq, ?_⟩
      rw [Segment.contents_store h.round hroom, ← List.append_assoc, ← h.written_eq]
    next outcome q hfailed hwrite =>
      have hsame : (t.queue.write side token parts).2 = t.queue := Segment.write_unchanged (by
        rw [hwrite]
        exact hfailed)
      rw [hwrite] at hsame
      dsimp only at hsame
      rw [hsame]
      exact h
  | read side token n =>
    unfold Traffic.turn
    dsimp only
    split
    next bs q hread =>
      obtain ⟨hn, rfl, rfl⟩ := Segment.read_ok hread
      refine ⟨h.round.take n, h.capacity_eq, ?_⟩
      rw [Segment.contents_take h.round hn, List.append_assoc, List.take_append_drop]
      exact h.written_eq
    next outcome q hfailed hread =>
      have hsame : (t.queue.read side token n).2 = t.queue := Segment.read_unchanged (by
        rw [hread]
        exact hfailed)
      rw [hread] at hsame
      dsimp only at hsame
      rw [hsame]
      exact h
  | close side =>
    unfold Traffic.turn Segment.close
    dsimp only
    split
    · exact h
    · dsimp only
      split
      · exact h.still rfl rfl rfl rfl
      · exact h
  | lose pid => exact h.still rfl rfl rfl rfl

/-- Any number of turns keeps the queue in order. -/
theorem InOrder.turns {capacity : Nat} {t : Traffic} (h : t.InOrder capacity) (ts : List Turn) :
    (t.turns ts).InOrder capacity := by
  induction ts generalizing t with
  | nil => exact h
  | cons action ts ih => exact ih (h.turn action)

/-- A queue of some capacity serves as one: the bytes from its first
offset to its second, around the end, are those written and not read, and
the next turn moves all its bytes or none. -/
structure Faithful (capacity : Nat) (t : Traffic) : Prop where
  capacity_eq : t.queue.capacity = capacity
  head_lt : t.queue.head < capacity
  tail_lt : t.queue.tail < capacity
  /-- What is on the queue is what has been written less what has been
  read, in the order of writing. -/
  written_eq : t.written = t.taken ++ t.queue.contents
  length_le : t.queue.contents.length ≤ capacity - 1
  head_eq_tail_iff : t.queue.head = t.queue.tail ↔ t.queue.contents = []
  /-- A read hands out the next bytes. -/
  read_ok : ∀ side token n bs q, t.queue.read side token n = (.ok (some bs), q) →
    bs.length = n ∧ t.queue.contents = bs ++ q.contents
  /-- An open side that is not interrupted reads as soon as all is there. -/
  read_ok_iff : ∀ side token n, side.closed = false → token.pending = none →
    ((∃ bs, (t.queue.read side token n).1 = .ok (some bs)) ↔ n ≤ t.queue.contents.length)
  /-- A read that hands out nothing changes nothing. -/
  read_unchanged : ∀ side token n, (∀ bs, (t.queue.read side token n).1 ≠ .ok (some bs)) →
    (t.queue.read side token n).2 = t.queue
  /-- An open side that is not interrupted writes exactly what fits. -/
  write_ok_iff : ∀ side token parts, side.closed = false → token.pending = none →
    ((t.queue.write side token parts).1 = .ok true ↔
      parts.flatten.length ≤ capacity - 1 - t.queue.contents.length)
  /-- A write copies its parts in one after another, each from where the
  last one ended, and they follow what was there. -/
  write_ok : ∀ side token parts q, t.queue.write side token parts = (.ok true, q) →
    q = parts.foldl Segment.store t.queue ∧ q.contents = t.queue.contents ++ parts.flatten
  /-- A write that does not succeed changes nothing. -/
  write_unchanged : ∀ side token parts, (t.queue.write side token parts).1 ≠ .ok true →
    (t.queue.write side token parts).2 = t.queue

/-- A queue in order is faithful. -/
theorem InOrder.faithful {capacity : Nat} {t : Traffic} (h : t.InOrder capacity) :
    t.Faithful capacity where
  capacity_eq := h.capacity_eq
  head_lt := h.capacity_eq ▸ h.round.head_lt
  tail_lt := h.capacity_eq ▸ h.round.tail_lt
  written_eq := h.written_eq
  length_le := by
    have hlt := h.round.used_lt
    rw [Segment.length_contents, ← h.capacity_eq]
    omega
  head_eq_tail_iff := by
    rw [h.round.head_eq_tail_iff, ← Segment.length_contents, List.length_eq_zero_iff]
  read_ok := by
    intro side token n bs q hread
    obtain ⟨hn, rfl, rfl⟩ := Segment.read_ok hread
    refine ⟨?_, ?_⟩
    · rw [List.length_take, Segment.length_contents, Nat.min_eq_left hn]
    · rw [Segment.contents_take h.round hn, List.take_append_drop]
  read_ok_iff := by
    intro side token n hopen hcalm
    rw [Segment.read_ok_iff h.round hopen hcalm, Segment.length_contents]
  read_unchanged := fun _ _ _ hfailed => Segment.read_unchanged hfailed
  write_ok_iff := by
    intro side token parts hopen hcalm
    rw [Segment.write_ok_iff h.round hopen hcalm, Segment.free, Segment.length_contents,
      h.capacity_eq]
  write_ok := by
    intro side token parts q hwrite
    obtain ⟨hroom, rfl⟩ := Segment.write_ok hwrite
    exact ⟨Segment.store_flatten h.round parts, Segment.contents_store h.round hroom⟩
  write_unchanged := fun _ _ _ hfailed => Segment.write_unchanged hfailed

end Traffic

/-- Whatever the two sides of a new queue do, and in whatever order, the
queue stays faithful. -/
theorem traffic_faithful (key producer : Nat) {capacity : Nat} (h : 2 ≤ capacity) :
    ∃ q, Segment.create key producer capacity = .ok q ∧
      ∀ turns : List Turn, (Traffic.turns { queue := q } turns).Faithful capacity := by
  obtain ⟨q, hq, hround, hcap, hempty⟩ := Segment.round_create key producer h
  refine ⟨q, hq, ?_⟩
  intro turns
  have hstart : (Traffic.mk q [] []).InOrder capacity := by
    refine ⟨hround, hcap, ?_⟩
    rw [hempty]
    rfl
  exact (hstart.turns turns).faithful

/-- A write of two parts goes around the end of a queue of five bytes: the
first fills the last but one place, and the second the last and, again,
the first. -/
theorem traffic_faithful_around :
    let q : Segment := { key := 7, capacity := 5, producer := 1 }
    let t := Traffic.turns { queue := q }
      [.write {} {} [[1, 2, 3]], .read {} {} 2, .write {} {} [[4], [5, 6]]]
    2 ≤ 5 ∧ Segment.create 7 1 5 = .ok q ∧ t.Faithful 5 ∧
      t.queue.area = [6, 2, 3, 4, 5] ∧ t.queue.head = 2 ∧ t.queue.tail = 1 ∧
      t.taken = [1, 2] ∧ t.queue.contents = [3, 4, 5, 6] := by
  intro q t
  have htwo : 2 ≤ 5 := by decide
  obtain ⟨q', hq, hfaithful⟩ := traffic_faithful 7 1 htwo
  obtain rfl : q = q' := by
    cases hq
    rfl
  exact ⟨htwo, rfl, hfaithful _, by decide +kernel, by decide +kernel, by decide +kernel,
    by decide +kernel, by decide +kernel⟩

end Intake
