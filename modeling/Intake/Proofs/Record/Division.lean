import Intake.Record.Delimited
/-!
# Dividing an input in memory

What a delimited input means when no buffer stands between it and the
reader: the quote automaton (`Region.next`) is run once over all of its
bytes, and every line feed that it takes for an end closes a segment.
What is left after the last of them is the tail, which has no line feed
of its own.

`Division.outcomes` says which records and which end a division has for
a reader that holds no more than `limit` bytes: segments are counted
from one, a tail outside quotes is a record with a line feed added, and
the first segment of `limit` bytes or more ends the reading, whether
its line feed was there or is the one to be added.
-/

namespace Intake

/-- An input in memory, divided where its records end. -/
structure Division where
  /-- The segments that end with a line feed outside quotes. -/
  closed : List Bytes
  /-- What follows the last of them. -/
  tail : Bytes
  /-- Where the tail ends. -/
  region : Region
  deriving DecidableEq, Repr

namespace Dialect

/-- Runs the automaton over bytes; `seen` are those of the current
segment before them. -/
def divideFrom (d : Dialect) (region : Region) (seen : Bytes) : Bytes → Division
  | [] => ⟨[], seen, region⟩
  | b :: bs =>
    match region.next d b with
    | none =>
      let rest := divideFrom d .outside [] bs
      { rest with closed := (seen ++ [b]) :: rest.closed }
    | some region => divideFrom d region (seen ++ [b]) bs

/-- Divides an input. -/
def divide (d : Dialect) (input : Bytes) : Division := d.divideFrom .outside [] input

end Dialect

namespace Division

/-- The line feed that the input lacks at its end, if it lacks one. -/
def completion (D : Division) : Bytes := if D.tail = [] then [] else [Csv.lineFeed]

/-- The segments, each with the line feed that ends it. -/
def segments (D : Division) : List Bytes :=
  D.closed ++ if D.tail = [] then [] else [D.tail ++ D.completion]

/-- The segments that can be records: a tail in quotes cannot. -/
def whole (D : Division) : List Bytes := if D.region.isQuoted then D.closed else D.segments

/-- The record of a segment. -/
def record (d : Dialect) (forced : List Bool) (segment : Bytes × Nat) : Record :=
  ⟨segment.2, segment.1, split d forced (stripEnd segment.1), none⟩

/-- The records, after `count` others: those of the segments before the
first one of `limit` bytes or more. -/
def records (d : Dialect) (forced : List Bool) (limit count : Nat) (D : Division) :
    List Record :=
  ((D.whole.takeWhile (·.length < limit)).zipIdx (count + 1)).map (record d forced)

/-- How the reading ends: at a segment of `limit` bytes or more, inside
quotes, or just at the end of the input. -/
def stop (limit count : Nat) (D : Division) : Except LoadError (Option Record) :=
  let fitting := (D.segments.takeWhile (·.length < limit)).length
  if fitting < D.segments.length then .error (.recordTooLarge (count + fitting + 1) limit)
  else if D.region.isQuoted then .error (.unterminatedQuote (count + D.segments.length))
  else .ok none

/-- The outcomes of reading to the end, or to the first failure. -/
def outcomes (d : Dialect) (forced : List Bool) (limit count : Nat) (D : Division) :
    List (Except LoadError (Option Record)) :=
  (D.records d forced limit count).map (fun x => .ok (some x)) ++ [D.stop limit count]

/-! ## Reading a division off segment by segment -/

variable (d : Dialect) (forced : List Bool) (limit count : Nat)

/-- A closed segment that fits is the next record. -/
theorem outcomes_cons {s : Bytes} (hs : s.length < limit) (closed : List Bytes) (tail : Bytes)
    (region : Region) :
    outcomes d forced limit count ⟨s :: closed, tail, region⟩
      = .ok (some (record d forced (s, count + 1)))
          :: outcomes d forced limit (count + 1) ⟨closed, tail, region⟩ := by
  have hseg : segments ⟨s :: closed, tail, region⟩ = s :: segments ⟨closed, tail, region⟩ := rfl
  have hwhole : whole ⟨s :: closed, tail, region⟩ = s :: whole ⟨closed, tail, region⟩ := by
    cases region <;> rfl
  have hstop : stop limit count ⟨s :: closed, tail, region⟩
      = stop limit (count + 1) ⟨closed, tail, region⟩ := by
    simp only [stop, hseg, List.takeWhile_cons, hs, decide_true, if_true, List.length_cons,
      Nat.add_lt_add_iff_right, Nat.add_assoc, Nat.add_comm 1]
  simp only [outcomes, records, hwhole, hstop, List.takeWhile_cons, hs, decide_true, if_true,
    List.zipIdx_cons, List.map_cons, List.cons_append]

/-- A closed segment that does not fit ends the reading. -/
theorem outcomes_cons_long {s : Bytes} (hs : limit ≤ s.length) (closed : List Bytes)
    (tail : Bytes) (region : Region) :
    outcomes d forced limit count ⟨s :: closed, tail, region⟩
      = [.error (.recordTooLarge (count + 1) limit)] := by
  have hs' : ¬ s.length < limit := by omega
  have hseg : segments ⟨s :: closed, tail, region⟩ = s :: segments ⟨closed, tail, region⟩ := rfl
  have hwhole : whole ⟨s :: closed, tail, region⟩ = s :: whole ⟨closed, tail, region⟩ := by
    cases region <;> rfl
  simp [outcomes, records, stop, hseg, hwhole, hs']

/-- Nothing is left of the input. -/
theorem outcomes_nil : outcomes d forced limit count ⟨[], [], .outside⟩ = [.ok none] := by
  simp [outcomes, records, stop, whole, segments, Region.isQuoted]

/-- A tail that does not fit with a line feed ends the reading. -/
theorem outcomes_tail_long {tail : Bytes} (ht : tail ≠ []) (hl : limit ≤ tail.length + 1)
    (region : Region) :
    outcomes d forced limit count ⟨[], tail, region⟩
      = [.error (.recordTooLarge (count + 1) limit)] := by
  have hl' : ¬ tail.length + 1 < limit := by omega
  cases region <;>
    simp [outcomes, records, stop, whole, segments, completion, Region.isQuoted, ht, hl']

/-- A tail in quotes that would fit is an unterminated quote. -/
theorem outcomes_tail_quoted {tail : Bytes} (ht : tail ≠ []) (hl : tail.length + 1 < limit)
    {region : Region} (hq : region.isQuoted = true) :
    outcomes d forced limit count ⟨[], tail, region⟩
      = [.error (.unterminatedQuote (count + 1))] := by
  simp [outcomes, records, stop, whole, segments, completion, hq, ht, hl]

/-- Any other tail that fits is the last record. -/
theorem outcomes_tail {tail : Bytes} (ht : tail ≠ []) (hl : tail.length + 1 < limit)
    {region : Region} (hq : region.isQuoted = false) :
    outcomes d forced limit count ⟨[], tail, region⟩
      = [.ok (some (record d forced (tail ++ [Csv.lineFeed], count + 1))), .ok none] := by
  simp [outcomes, records, stop, whole, segments, completion, hq, ht, hl]

/-- The segments that can be records are the first ones, in order. -/
theorem whole_prefix (D : Division) : D.whole <+: D.segments := by
  unfold whole
  split
  · exact List.prefix_append _ _
  · exact List.prefix_refl _

/-- The records are numbered in a row, and each has the bytes of the
segment in its place. -/
theorem records_getElem? {D : Division} {i : Nat} {x : Record}
    (h : (D.records d forced limit count)[i]? = some x) :
    x.number = count + i + 1 ∧ D.segments[i]? = some x.raw := by
  simp only [records, List.getElem?_map, List.getElem?_zipIdx, Option.map_map,
    Option.map_eq_some_iff] at h
  obtain ⟨s, hs, rfl⟩ := h
  refine ⟨by simp only [Function.comp, record]; omega, ?_⟩
  have hpre := (List.takeWhile_prefix (·.length < limit)).trans D.whole_prefix
  obtain ⟨hi, hx⟩ := List.getElem?_eq_some_iff.mp hs
  rw [List.prefix_iff_getElem?.mp hpre i hi, hx]
  rfl

/-- A reading that ends with the input has read all of its segments. -/
theorem raw_records_of_stop {D : Division} (h : D.stop limit count = .ok none) :
    (D.records d forced limit count).map Record.raw = D.segments := by
  have key : ¬ (D.segments.takeWhile (·.length < limit)).length < D.segments.length
      ∧ D.region.isQuoted = false := by
    simp only [stop] at h
    split at h
    · cases h
    · next hfit =>
      split at h
      · cases h
      · next hq => exact ⟨hfit, by simpa using hq⟩
  obtain ⟨hfit, hq⟩ := key
  have hall : D.segments.takeWhile (·.length < limit) = D.segments :=
    (List.takeWhile_prefix _).eq_of_length_le (by omega)
  have hmap : ∀ (ss : List Bytes) (k : Nat),
      ((ss.zipIdx k).map (record d forced)).map Record.raw = ss := by
    intro ss
    induction ss with
    | nil => intro k; rfl
    | cons s ss ih => intro k; simp only [List.zipIdx_cons, List.map_cons, ih]; rfl
  simp only [records, whole, hq, Bool.false_eq_true, if_false, hall, hmap]

end Division

/-! ## What a division has to do with its input -/

namespace Dialect

variable (d : Dialect)

theorem divideFrom_end {region : Region} {b : UInt8} (h : region.next d b = none)
    (seen bs : Bytes) :
    d.divideFrom region seen (b :: bs)
      = { d.divide bs with closed := (seen ++ [b]) :: (d.divide bs).closed } := by
  simp only [divideFrom, h, divide]

theorem divideFrom_next {region next : Region} {b : UInt8} (h : region.next d b = some next)
    (seen bs : Bytes) :
    d.divideFrom region seen (b :: bs) = d.divideFrom next (seen ++ [b]) bs := by
  simp only [divideFrom, h]

/-- Dividing loses no byte. -/
theorem flatten_divideFrom (region : Region) (seen bs : Bytes) :
    (d.divideFrom region seen bs).closed.flatten ++ (d.divideFrom region seen bs).tail
      = seen ++ bs := by
  induction bs generalizing region seen with
  | nil => simp [divideFrom]
  | cons b bs ih =>
    cases hnext : region.next d b with
    | none =>
      have hrest := ih .outside []
      rw [divideFrom_end d hnext]
      simp only [divide, List.flatten_cons, List.append_assoc] at hrest ⊢
      rw [hrest, List.nil_append, List.singleton_append]
    | some next => rw [divideFrom_next d hnext, ih, List.append_assoc, List.singleton_append]

/-- The segments put together are the input, with the line feed that it
lacks. -/
theorem flatten_segments (input : Bytes) :
    (d.divide input).segments.flatten = input ++ (d.divide input).completion := by
  have h := flatten_divideFrom d .outside [] input
  unfold Division.segments Division.completion
  split
  · next ht =>
    simp only [divide] at ht ⊢
    rw [ht] at h
    simpa using h
  · simp only [divide, List.flatten_append, List.flatten_cons, List.flatten_nil,
      List.append_nil, ← List.append_assoc, h, List.nil_append]

/-! ## Finding the next segment -/

/-- A scan of more bytes goes on where that of the first ones stopped. -/
theorem scan_append (size : Nat) (region : Region) (bs cs : Bytes) :
    scan d size region (bs ++ cs) = match scan d size region bs with
      | .found n => .found n
      | .unfinished n region => scan d n region cs := by
  induction bs generalizing size region with
  | nil => rfl
  | cons b bs ih =>
    simp only [List.cons_append, scan]
    split
    · rfl
    · exact ih ..

/-- A scan that finds no end has counted every byte, and all of them are
the tail. -/
theorem divideFrom_of_unfinished {size n : Nat} {region last : Region} {bs : Bytes}
    (h : scan d size region bs = .unfinished n last) (seen : Bytes) :
    n = size + bs.length ∧ d.divideFrom region seen bs = ⟨[], seen ++ bs, last⟩ := by
  induction bs generalizing size region seen with
  | nil =>
    cases h
    exact ⟨rfl, by simp [divideFrom]⟩
  | cons b bs ih =>
    unfold scan at h
    split at h
    · cases h
    · next hnext =>
      obtain ⟨hn, hdiv⟩ := ih h (seen ++ [b])
      refine ⟨by simp only [List.length_cons]; omega, ?_⟩
      rw [divideFrom_next d hnext, hdiv, List.append_assoc, List.singleton_append]

/-- A scan that finds an end has counted the bytes of the first segment,
and the others are those of the rest. -/
theorem divideFrom_of_found {size n : Nat} {region : Region} {bs : Bytes}
    (h : scan d size region bs = .found n) (seen : Bytes) :
    size < n ∧ n ≤ size + bs.length ∧
      d.divideFrom region seen bs =
        { d.divide (bs.drop (n - size)) with
          closed := (seen ++ bs.take (n - size)) :: (d.divide (bs.drop (n - size))).closed } := by
  induction bs generalizing size region seen with
  | nil => cases h
  | cons b bs ih =>
    unfold scan at h
    split at h
    · next hnext =>
      cases h
      refine ⟨by omega, by simp only [List.length_cons]; omega, ?_⟩
      rw [divideFrom_end d hnext, Nat.add_sub_cancel_left]
      rfl
    · next hnext =>
      obtain ⟨hlt, hle, hdiv⟩ := ih h (seen ++ [b])
      refine ⟨by omega, by simp only [List.length_cons]; omega, ?_⟩
      have h1 : n - size = n - (size + 1) + 1 := by omega
      rw [divideFrom_next d hnext, hdiv, h1, List.take_succ_cons, List.drop_succ_cons,
        List.append_assoc, List.singleton_append]

end Dialect
end Intake
