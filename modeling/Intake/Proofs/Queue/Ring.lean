import Intake.Queue.Segment
/-!
# A ring is a queue

The two offsets of a segment chase each other around a fixed number of
bytes, and a write or a read may lie across the end. Seen through
`contents`, none of that shows: a write appends its bytes, a read takes
bytes off the front, and whatever fails changes nothing.

Everything here rests on one fact about offsets, that two places less
than a whole turn apart are different bytes (`place_inj`). A write fills
places that a reader does not count yet, so it cannot touch a byte that
is still to be read.
-/

namespace Intake

/-! ## Places on a circle -/

/-- An offset that has gone past the end at most once. -/
theorem mod_of_lt_double {a c : Nat} (h : a < c + c) : a % c = if a < c then a else a - c := by
  by_cases hlt : a < c
  · rw [if_pos hlt, Nat.mod_eq_of_lt hlt]
  · rw [if_neg hlt, Nat.mod_eq_sub_mod (by omega), Nat.mod_eq_of_lt (by omega)]

/-- Places less than a whole turn apart are different. -/
theorem place_inj {c start i j : Nat} (hs : start < c) (hi : i < c) (hj : j < c)
    (h : (start + i) % c = (start + j) % c) : i = j := by
  rw [mod_of_lt_double (by omega), mod_of_lt_double (by omega)] at h
  by_cases hic : start + i < c
  · by_cases hjc : start + j < c
    · rw [if_pos hic, if_pos hjc] at h
      omega
    · rw [if_pos hic, if_neg hjc] at h
      omega
  · by_cases hjc : start + j < c
    · rw [if_neg hic, if_pos hjc] at h
      omega
    · rw [if_neg hic, if_neg hjc] at h
      omega

namespace Segment

/-! ## Storing bytes -/

/-- A byte stored at an offset is found there, and no other changes. -/
theorem getD_storeAt {c offset : Nat} {data : Array UInt8} {b : UInt8} (ho : offset < c) (i : Nat) :
    (storeAt c data offset b).getD i 0 = if i = offset then b else data.getD i 0 := by
  by_cases hin : offset < data.size
  · simp only [storeAt, if_pos hin, Array.getD_eq_getD_getElem?,
      Array.getElem?_setIfInBounds]
    by_cases hi : i = offset
    · subst hi
      rw [if_pos rfl, if_pos rfl, Option.getD_some]
    · rw [if_neg (fun h => hi h.symm), if_neg hi]
  · simp only [storeAt, if_neg hin, if_pos ho, Array.getD_eq_getD_getElem?]
    by_cases hi : i = offset
    · subst hi
      have hsize : (data ++ Array.replicate (i - data.size) (0 : UInt8)).size = i := by
        rw [Array.size_append, Array.size_replicate]
        omega
      rw [if_pos rfl, Array.getElem?_push, if_pos hsize.symm, Option.getD_some]
    · rw [if_neg hi, Array.getElem?_push, Array.size_append, Array.size_replicate,
        if_neg (by omega), Array.getElem?_append]
      by_cases hd : i < data.size
      · rw [if_pos hd]
      · -- Between the bytes there were and the new one stand zeros.
        rw [if_neg hd, Array.getElem?_replicate, Array.getElem?_eq_none (by omega)]
        by_cases hz : i - data.size < offset - data.size
        · rw [if_pos hz, Option.getD_some, Option.getD_none]
        · rw [if_neg hz]

/-- Storing keeps within the capacity. -/
theorem size_storeAt {c offset : Nat} {data : Array UInt8} (b : UInt8) (hd : data.size ≤ c) :
    (storeAt c data offset b).size ≤ c := by
  unfold storeAt
  split
  · rw [Array.size_setIfInBounds]
    exact hd
  · split
    · rw [Array.size_push, Array.size_append, Array.size_replicate]
      omega
    · exact hd

/-- Storing bytes keeps within the capacity. -/
theorem size_storeFrom {c : Nat} (bs : Bytes) {data : Array UInt8} (offset : Nat)
    (hd : data.size ≤ c) : (storeFrom c data offset bs).size ≤ c := by
  induction bs generalizing data offset with
  | nil => exact hd
  | cons b bs ih => exact ih _ (size_storeAt b hd)

/-- One place on, and then `i` more. -/
theorem place_succ (c start i : Nat) : ((start + 1) % c + i) % c = (start + (i + 1)) % c := by
  rw [Nat.mod_add_mod, Nat.add_right_comm, Nat.add_assoc]

/-- Bytes stored from an offset on change no place but their own. -/
theorem getD_storeFrom_of_ne {c : Nat} (bs : Bytes) {data : Array UInt8} {offset i : Nat}
    (ho : offset < c) (h : ∀ j, j < bs.length → i ≠ (offset + j) % c) :
    (storeFrom c data offset bs).getD i 0 = data.getD i 0 := by
  induction bs generalizing data offset with
  | nil => rfl
  | cons b bs ih =>
    have hfirst : i ≠ offset := by
      have h0 := h 0 (Nat.succ_pos _)
      rwa [Nat.add_zero, Nat.mod_eq_of_lt ho] at h0
    have hrest : ∀ j, j < bs.length → i ≠ ((offset + 1) % c + j) % c := by
      intro j hj
      rw [place_succ]
      exact h (j + 1) (Nat.succ_lt_succ hj)
    rw [storeFrom, ih (Nat.mod_lt _ (by omega)) hrest, getD_storeAt ho, if_neg hfirst]

/-- Each of the bytes stored from an offset on is found at its place,
unless there are more of them than places. -/
theorem getD_storeFrom {c : Nat} (bs : Bytes) {data : Array UInt8} {offset j : Nat}
    (ho : offset < c) (hlen : bs.length ≤ c) (hj : j < bs.length) :
    (storeFrom c data offset bs).getD ((offset + j) % c) 0 = bs[j] := by
  induction bs generalizing data offset j with
  | nil => exact absurd hj (Nat.not_lt_zero _)
  | cons b bs ih =>
    rw [List.length_cons] at hlen hj
    have hnext : (offset + 1) % c < c := Nat.mod_lt _ (by omega)
    cases j with
    | zero =>
      rw [Nat.add_zero, Nat.mod_eq_of_lt ho, storeFrom, getD_storeFrom_of_ne bs hnext,
        getD_storeAt ho, if_pos rfl]
      · rfl
      · -- The later bytes stop short of a whole turn.
        intro j hj' heq
        rw [place_succ] at heq
        have hzero : (offset + 0) % c = (offset + (j + 1)) % c := by
          rw [Nat.add_zero, Nat.mod_eq_of_lt ho]
          exact heq
        have := place_inj ho (by omega) (by omega) hzero
        omega
    | succ j =>
      have hrest : j < bs.length := Nat.lt_of_succ_lt_succ hj
      rw [storeFrom, ← place_succ c offset j]
      exact ih hnext (by omega) hrest

/-- Bytes stored one part after another. -/
theorem storeFrom_append {c : Nat} (as bs : Bytes) (data : Array UInt8) {offset : Nat}
    (ho : offset < c) :
    storeFrom c data offset (as ++ bs)
      = storeFrom c (storeFrom c data offset as) ((offset + as.length) % c) bs := by
  induction as generalizing data offset with
  | nil => rw [List.nil_append, List.length_nil, Nat.add_zero, Nat.mod_eq_of_lt ho, storeFrom]
  | cons a as ih =>
    rw [List.cons_append, storeFrom, storeFrom, ih _ (Nat.mod_lt _ (by omega)), place_succ,
      List.length_cons]

/-! ## The queue -/

/-- The offsets of a segment are places of it. -/
structure Round (q : Segment) : Prop where
  two_le : 2 ≤ q.capacity
  head_lt : q.head < q.capacity
  tail_lt : q.tail < q.capacity
  size_le : q.data.size ≤ q.capacity

/-- A new segment is empty and in order. -/
theorem round_create (key producer : Nat) {capacity : Nat} (h : 2 ≤ capacity) :
    ∃ q, create key producer capacity = .ok q ∧ q.Round ∧ q.capacity = capacity ∧
      q.contents = [] := by
  refine ⟨{ key := key, capacity := capacity, producer := producer }, ?_, ?_, rfl, ?_⟩
  · rw [create, if_neg (by omega)]
  · exact ⟨h, show 0 < capacity by omega, show 0 < capacity by omega, Nat.zero_le _⟩
  · have hused : used { key := key, capacity := capacity, producer := producer } = 0 := by
      show (0 + capacity - 0) % capacity = 0
      rw [Nat.zero_add, Nat.sub_zero, Nat.mod_self]
    rw [contents, hused]
    rfl

namespace Round

variable {q : Segment}

theorem used_eq (h : q.Round) :
    q.used = if q.head ≤ q.tail then q.tail - q.head else q.tail + q.capacity - q.head := by
  have hh := h.head_lt
  have ht := h.tail_lt
  rw [used, mod_of_lt_double (by omega)]
  by_cases hle : q.head ≤ q.tail
  · rw [if_pos hle, if_neg (by omega)]
    omega
  · rw [if_neg hle, if_pos (by omega)]

/-- One place always stays unused. -/
theorem used_lt (h : q.Round) : q.used < q.capacity :=
  Nat.mod_lt _ (Nat.lt_of_lt_of_le Nat.two_pos h.two_le)

/-- The next byte to write is as far behind the next to read as there are
bytes between them. -/
theorem head_add_used (h : q.Round) : (q.head + q.used) % q.capacity = q.tail := by
  have hh := h.head_lt
  have ht := h.tail_lt
  rw [h.used_eq]
  by_cases hle : q.head ≤ q.tail
  · rw [if_pos hle, mod_of_lt_double (by omega), if_pos (by omega)]
    omega
  · rw [if_neg hle, mod_of_lt_double (by omega), if_neg (by omega)]
    omega

/-- The offsets meet exactly where nothing is left to read. -/
theorem head_eq_tail_iff (h : q.Round) : q.head = q.tail ↔ q.used = 0 := by
  have hh := h.head_lt
  have ht := h.tail_lt
  rw [h.used_eq]
  by_cases hle : q.head ≤ q.tail
  · rw [if_pos hle]
    omega
  · rw [if_neg hle]
    omega

theorem free_eq (h : q.Round) : q.free + q.used = q.capacity - 1 := by
  have hu := h.used_lt
  rw [free]
  omega

end Round

theorem length_contents (q : Segment) : q.contents.length = q.used := by
  rw [contents, List.length_map, List.length_range]

theorem getElem_contents (q : Segment) {i : Nat} (h : i < q.contents.length) :
    q.contents[i] = q.byteAt i := by
  simp only [contents, List.getElem_map, List.getElem_range]

/-! ## Writing -/

theorem used_store {q : Segment} {bs : Bytes} (h : q.Round) (hroom : bs.length ≤ q.free) :
    (q.store bs).used = q.used + bs.length := by
  have hfree := h.free_eq
  have hh := h.head_lt
  have ht := h.tail_lt
  have htwo := h.two_le
  have hu := h.used_eq
  show ((q.tail + bs.length) % q.capacity + q.capacity - q.head) % q.capacity = _
  rw [mod_of_lt_double (by omega : q.tail + bs.length < q.capacity + q.capacity)]
  by_cases hle : q.head ≤ q.tail
  · rw [if_pos hle] at hu
    by_cases hend : q.tail + bs.length < q.capacity
    · rw [if_pos hend, mod_of_lt_double (by omega), if_neg (by omega)]
      omega
    · rw [if_neg hend, mod_of_lt_double (by omega), if_pos (by omega)]
      omega
  · rw [if_neg hle] at hu
    rw [if_pos (by omega), mod_of_lt_double (by omega), if_pos (by omega)]
    omega

theorem Round.store {q : Segment} (h : q.Round) (bs : Bytes) : (q.store bs).Round where
  two_le := h.two_le
  head_lt := h.head_lt
  tail_lt := Nat.mod_lt _ (Nat.lt_of_lt_of_le Nat.two_pos h.two_le)
  size_le := size_storeFrom bs q.tail h.size_le

/-- A byte that was there to read stays as it is. -/
theorem byteAt_store_of_lt {q : Segment} {bs : Bytes} (h : q.Round) (hroom : bs.length ≤ q.free)
    {i : Nat} (hi : i < q.used) : (q.store bs).byteAt i = q.byteAt i := by
  have hfree := h.free_eq
  apply getD_storeFrom_of_ne bs h.tail_lt
  intro j hj heq
  rw [← h.head_add_used, Nat.mod_add_mod, Nat.add_assoc] at heq
  have := place_inj h.head_lt (by omega) (by omega) heq
  omega

/-- The bytes written come after those that were there. -/
theorem byteAt_store {q : Segment} {bs : Bytes} (h : q.Round) (hroom : bs.length ≤ q.free)
    {i : Nat} (hi : i < bs.length) : (q.store bs).byteAt (q.used + i) = bs[i] := by
  have hfree := h.free_eq
  show (storeFrom q.capacity q.data q.tail bs).getD ((q.head + (q.used + i)) % q.capacity) 0 = _
  rw [← Nat.add_assoc, ← Nat.mod_add_mod, h.head_add_used]
  exact getD_storeFrom bs h.tail_lt (by omega) hi

/-- Writing appends. -/
theorem contents_store {q : Segment} {bs : Bytes} (h : q.Round) (hroom : bs.length ≤ q.free) :
    (q.store bs).contents = q.contents ++ bs := by
  apply List.ext_getElem
  · rw [length_contents, used_store h hroom, List.length_append, length_contents]
  · intro i hi _
    rw [length_contents, used_store h hroom] at hi
    rw [getElem_contents, List.getElem_append]
    by_cases hold : i < q.contents.length
    · rw [dif_pos hold, getElem_contents]
      rw [length_contents] at hold
      exact byteAt_store_of_lt h hroom hold
    · rw [dif_neg hold]
      rw [length_contents] at hold
      have hnew := byteAt_store h hroom (show i - q.used < bs.length by omega)
      rw [Nat.add_sub_cancel' (by omega)] at hnew
      simp only [length_contents]
      exact hnew

/-- Parts written one after another are written as one. -/
theorem store_append {q : Segment} (h : q.Round) (as bs : Bytes) :
    q.store (as ++ bs) = (q.store as).store bs := by
  simp only [store, storeFrom_append as bs q.data h.tail_lt, List.length_append, Nat.mod_add_mod,
    Nat.add_assoc]

/-- Parts written one after another, each from where the last one ended,
are written as one. -/
theorem store_flatten {q : Segment} (h : q.Round) (parts : List Bytes) :
    q.store parts.flatten = parts.foldl Segment.store q := by
  induction parts generalizing q with
  | nil =>
    show { q with data := q.data, tail := (q.tail + 0) % q.capacity } = q
    rw [Nat.add_zero, Nat.mod_eq_of_lt h.tail_lt]
  | cons part parts ih =>
    rw [List.flatten_cons, store_append h, ih (h.store part), List.foldl_cons]

/-! ## Reading -/

theorem used_take {q : Segment} {n : Nat} (h : q.Round) (hn : n ≤ q.used) :
    (q.take n).2.used = q.used - n := by
  have hh := h.head_lt
  have ht := h.tail_lt
  have hu := h.used_eq
  show (q.tail + q.capacity - (q.head + n) % q.capacity) % q.capacity = _
  have hlt := h.used_lt
  rw [mod_of_lt_double (by omega : q.head + n < q.capacity + q.capacity)]
  by_cases hle : q.head ≤ q.tail
  · rw [if_pos hle] at hu
    rw [if_pos (by omega), mod_of_lt_double (by omega), if_neg (by omega)]
    omega
  · rw [if_neg hle] at hu
    by_cases hend : q.head + n < q.capacity
    · rw [if_pos hend, mod_of_lt_double (by omega)]
      by_cases hall : q.tail + q.capacity - (q.head + n) < q.capacity
      · rw [if_pos hall]
        omega
      · rw [if_neg hall]
        omega
    · rw [if_neg hend, mod_of_lt_double (by omega), if_neg (by omega)]
      omega

theorem Round.take {q : Segment} (h : q.Round) (n : Nat) : (q.take n).2.Round where
  two_le := h.two_le
  head_lt := Nat.mod_lt _ (Nat.lt_of_lt_of_le Nat.two_pos h.two_le)
  tail_lt := h.tail_lt
  size_le := h.size_le

/-- Reading hands out the first bytes. -/
theorem take_fst {q : Segment} {n : Nat} (hn : n ≤ q.used) : (q.take n).1 = q.contents.take n := by
  rw [contents, ← List.map_take, List.take_range, Nat.min_eq_left hn]
  rfl

/-- Reading leaves the bytes behind those it hands out. -/
theorem contents_take {q : Segment} {n : Nat} (h : q.Round) (hn : n ≤ q.used) :
    (q.take n).2.contents = q.contents.drop n := by
  apply List.ext_getElem
  · rw [length_contents, used_take h hn, List.length_drop, length_contents]
  · intro i hi _
    rw [getElem_contents, List.getElem_drop, getElem_contents]
    show q.data.getD (((q.head + n) % q.capacity + i) % q.capacity) 0 = _
    rw [Nat.mod_add_mod, Nat.add_assoc]
    rfl

end Segment
end Intake
