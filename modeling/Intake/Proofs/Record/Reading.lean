import Intake.Proofs.Record.Arena
import Intake.Proofs.Record.Division
import Intake.Proofs.Record.Rounds
/-!
# Reading in pieces is reading in memory

A delimited reader sees its input through an arena that is slid, grown
and filled by reads of any size. What it hands out does not depend on
any of that: `outcomes_eq_division` says that it is what dividing the
whole input in memory gives, for the greatest size that the arena may
have. It says so of every dialect that has a delimiter. One without is
never done with its first record that has a byte (`endless`).

The invariant between two reads is `Ready`. Of the input it fixes only
`unread`, the pending bytes followed by what the source still holds; a
fill moves bytes from the second part to the first and so changes
nothing that a later read can tell. `measureFrom` scans the pending
bytes and fills until it is done: `measureFrom_meets` packages that
loop, by induction on what the source still holds, as one scan over all
unread bytes.
-/

namespace Intake
namespace DelimitedReader

/-- The bytes that have not been handed out in a record. -/
def unread (r : DelimitedReader) : Bytes := r.buffer.pending ++ r.source.rest

/-- A reader between two reads: the arena is in order, the source ends
without a failure, and where it has reported its end nothing is left of
it and a missing line feed fits. -/
structure Ready (r : DelimitedReader) : Prop where
  sound : r.buffer.Sound
  quiet : r.source.failure = none
  exhausted : r.buffer.ended = true → r.source.rest = [] ∧ r.buffer.pending.length + 1 < r.buffer.max

/-- Two states of one reader with the same number of records read. -/
structure Alike (r r' : DelimitedReader) : Prop where
  dialect : r'.dialect = r.dialect
  forced : r'.forced = r.forced
  count : r'.count = r.count
  max : r'.buffer.max = r.buffer.max

theorem Alike.refl (r : DelimitedReader) : Alike r r := ⟨rfl, rfl, rfl, rfl⟩

theorem Alike.trans {r₁ r₂ r₃ : DelimitedReader} (h : Alike r₁ r₂) (h' : Alike r₂ r₃) :
    Alike r₁ r₃ :=
  ⟨h'.dialect.trans h.dialect, h'.forced.trans h.forced, h'.count.trans h.count,
    h'.max.trans h.max⟩

/-! ## Measuring the next record -/

/-- What measuring comes to at the end of the input, after `n` bytes that
no line feed follows. -/
def conclude (r : DelimitedReader) (n : Nat) (region : Region) :
    Except LoadError (Option Nat) × DelimitedReader :=
  if n = 0 then (.ok none, r)
  else if region.isQuoted then (.error (.unterminatedQuote (r.count + 1)), r)
  else
    match r.buffer.terminate Csv.lineFeed (r.count + 1) with
    | (.error e, buffer) => (.error e, { r with buffer := buffer })
    | (.ok (), buffer) => (.ok (some (n + 1)), { r with buffer := buffer })

section Loop

variable {r : DelimitedReader} {size n : Nat} {region last : Region} {fresh : Bytes}

/-- An end among the fresh bytes. -/
theorem measureFrom_found (hscan : scan r.dialect size region fresh = .found n) :
    r.measureFrom size region fresh = (.ok (some n), r) := by
  unfold measureFrom
  rw [hscan]

/-- No end, and a fill that fails. -/
theorem measureFrom_failed (hscan : scan r.dialect size region fresh = .unfinished n last)
    {e : LoadError} {b : Buffer} {s : ByteSource}
    (hfill : r.buffer.fill r.source (r.count + 1) = ⟨.error e, b, s⟩) :
    r.measureFrom size region fresh = (.error e, { r with buffer := b, source := s }) := by
  unfold measureFrom
  rw [hscan]
  dsimp only
  split
  · next h => cases hfill.symm.trans h; rfl
  · next h => cases hfill.symm.trans h
  · next h => cases hfill.symm.trans h

/-- No end, and a fill that adds bytes: they are the fresh ones now. -/
theorem measureFrom_filled (hscan : scan r.dialect size region fresh = .unfinished n last)
    {x : UInt8} {xs : Bytes} {b : Buffer} {s : ByteSource}
    (hfill : r.buffer.fill r.source (r.count + 1) = ⟨.ok (x :: xs), b, s⟩) :
    r.measureFrom size region fresh
      = { r with buffer := b, source := s }.measureFrom n last (x :: xs) := by
  conv => lhs; unfold measureFrom
  rw [hscan]
  dsimp only
  split
  · next h => cases hfill.symm.trans h
  · next h => cases hfill.symm.trans h; rfl
  · next h => cases hfill.symm.trans h

/-- No end, and no more bytes. -/
theorem measureFrom_ended (hscan : scan r.dialect size region fresh = .unfinished n last)
    {b : Buffer} {s : ByteSource}
    (hfill : r.buffer.fill r.source (r.count + 1) = ⟨.ok [], b, s⟩) :
    r.measureFrom size region fresh = { r with buffer := b, source := s }.conclude n last := by
  unfold measureFrom
  rw [hscan]
  dsimp only
  split
  · next h => cases hfill.symm.trans h
  · next h => cases hfill.symm.trans h
  · next h => cases hfill.symm.trans h; rfl

end Loop

/-- What measuring must come to, by a scan of everything unread: the
record found is pending as a whole, and a line feed has been added where
the input ends without one. -/
inductive Meets (r : DelimitedReader) :
    Scan → Except LoadError (Option Nat) × DelimitedReader → Prop
  | found {n : Nat} {r' : DelimitedReader} (fits : n < r.buffer.max) (ready : r'.Ready)
      (alike : Alike r r') (same : r'.unread = r.unread) (held : n ≤ r'.buffer.pending.length) :
      Meets r (.found n) (.ok (some n), r')
  | long {n : Nat} (r' : DelimitedReader) (long : r.buffer.max ≤ n) :
      Meets r (.found n) (.error (.recordTooLarge (r.count + 1) r.buffer.max), r')
  | longTail {n : Nat} (region : Region) (r' : DelimitedReader) (long : r.buffer.max ≤ n + 1) :
      Meets r (.unfinished n region)
        (.error (.recordTooLarge (r.count + 1) r.buffer.max), r')
  | exhausted (region : Region) (r' : DelimitedReader) (fits : 1 < r.buffer.max) :
      Meets r (.unfinished 0 region) (.ok none, r')
  | quoted {n : Nat} {region : Region} (r' : DelimitedReader) (nonempty : n ≠ 0)
      (fits : n + 1 < r.buffer.max) (inside : region.isQuoted = true) :
      Meets r (.unfinished n region) (.error (.unterminatedQuote (r.count + 1)), r')
  | tail {n : Nat} {region : Region} {r' : DelimitedReader} (nonempty : n ≠ 0)
      (fits : n + 1 < r.buffer.max) (outside : region.isQuoted = false)
      (sound : r'.buffer.Sound) (quiet : r'.source.failure = none) (alike : Alike r r')
      (pending : r'.buffer.pending = r.unread ++ [Csv.lineFeed]) (rest : r'.source.rest = []) :
      Meets r (.unfinished n region) (.ok (some (n + 1)), r')

/-- What measuring must come to is the same for another state of the
reader with the same bytes unread. -/
theorem Meets.of_alike {r r₁ : DelimitedReader} (ha : Alike r r₁) (hu : r₁.unread = r.unread)
    {sc : Scan} {out : Except LoadError (Option Nat) × DelimitedReader}
    (h : Meets r₁ sc out) : Meets r sc out := by
  have hm := ha.max
  have hc := ha.count
  cases h with
  | found fits ready alike same held =>
    exact .found (hm ▸ fits) ready (ha.trans alike) (same.trans hu) held
  | long r' long => rw [hm] at long ⊢; rw [hc]; exact .long r' long
  | longTail region r' long => rw [hm] at long ⊢; rw [hc]; exact .longTail region r' long
  | exhausted region r' fits => exact .exhausted region r' (hm ▸ fits)
  | quoted r' nonempty fits inside => rw [hc]; exact .quoted r' nonempty (hm ▸ fits) inside
  | tail nonempty fits outside sound quiet alike pending rest =>
    exact .tail nonempty (hm ▸ fits) outside sound quiet (ha.trans alike)
      (hu ▸ pending) rest

/-- The source has reported its end: the pending bytes are the last. -/
theorem meets_conclude {r : DelimitedReader} (h : r.Ready) (he : r.buffer.ended = true)
    {n : Nat} (hn : n = r.buffer.pending.length) (region : Region) :
    Meets r (.unfinished n region) (r.conclude n region) := by
  obtain ⟨hrest, hroom⟩ := h.exhausted he
  obtain ⟨b', hterm, hsound, hpend, hmax, -⟩ :=
    Buffer.terminate_ok h.sound Csv.lineFeed (r.count + 1) hroom
  have hfits : n + 1 < r.buffer.max := hn ▸ hroom
  unfold conclude
  by_cases hz : n = 0
  · rw [if_pos hz]
    subst hz
    exact .exhausted region r hfits
  · rw [if_neg hz]
    by_cases hq : region.isQuoted = true
    · rw [if_pos hq]
      exact .quoted r hz hfits hq
    · rw [if_neg hq, hterm]
      refine .tail hz hfits (by simpa using hq) hsound h.quiet ⟨rfl, rfl, rfl, hmax⟩ ?_ hrest
      rw [hpend, unread, hrest, List.append_nil]

/-- Measuring by scanning and filling is one scan of everything unread.

The induction is on what the source still holds: a fill that adds bytes
leaves it with fewer. In between, `size` bytes are pending that have been
scanned and the bytes in `fresh` are pending that have not. -/
theorem measureFrom_meets {r : DelimitedReader} (h : r.Ready) {size : Nat} {fresh : Bytes}
    (hsize : size + fresh.length = r.buffer.pending.length) (region : Region) :
    Meets r (scan r.dialect size region (fresh ++ r.source.rest))
      (r.measureFrom size region fresh) := by
  induction hk : r.source.rest.length using Nat.strongRecOn generalizing r size region fresh with
  | ind k ih =>
    rw [Dialect.scan_append]
    cases hscan : scan r.dialect size region fresh with
    | found n =>
      obtain ⟨-, hle, -⟩ := r.dialect.divideFrom_of_found hscan []
      have hlt := h.sound.pending_lt
      rw [measureFrom_found hscan]
      exact .found (by omega) h (.refl r) rfl (by omega)
    | unfinished n last =>
      obtain ⟨hn, -⟩ := r.dialect.divideFrom_of_unfinished hscan []
      have hn' : n = r.buffer.pending.length := by omega
      cases he : r.buffer.ended with
      | true =>
        -- nothing is left of the source, so the scan over it is over too
        obtain ⟨hrest, -⟩ := h.exhausted he
        rw [measureFrom_ended hscan (Buffer.fill_of_ended he r.source _), hrest]
        exact meets_conclude h he hn' last
      | false =>
        by_cases hfull : r.buffer.max ≤ r.buffer.pending.length + 1
        · -- the arena is full and holds no end: it can only come later
          rw [measureFrom_failed hscan (Buffer.fill_full h.sound he r.source _ hfull)]
          cases hlater : scan r.dialect n last r.source.rest with
          | found m =>
            obtain ⟨hlt, -, -⟩ := r.dialect.divideFrom_of_found hlater []
            simp only [hlater]
            exact .long _ (by omega)
          | unfinished m region =>
            obtain ⟨hm, -⟩ := r.dialect.divideFrom_of_unfinished hlater []
            simp only [hlater]
            exact .longTail region _ (by omega)
        · have hroom : r.buffer.pending.length + 1 < r.buffer.max := by omega
          by_cases hrest : r.source.rest = []
          · obtain ⟨b', hfill, hsound, hpend, hmax, hend⟩ :=
              Buffer.fill_of_nil h.sound he (r.count + 1) hroom hrest h.quiet
            have hready : Ready { r with buffer := b' } :=
              ⟨hsound, h.quiet, fun _ => ⟨hrest, by rw [hpend, hmax]; exact hroom⟩⟩
            have hun : unread { r with buffer := b' } = r.unread := by
              show b'.pending ++ _ = r.buffer.pending ++ _
              rw [hpend]
            have hal : Alike r { r with buffer := b' } := ⟨rfl, rfl, rfl, hmax⟩
            rw [measureFrom_ended hscan hfill, hrest]
            exact (meets_conclude hready hend (hn'.trans (by rw [hpend])) last).of_alike hal hun
          · obtain ⟨bs, b', s', hfill, hne, hbs, hfail, hsound, hpend, hmax, hend⟩ :=
              Buffer.fill_of_rest h.sound he (r.count + 1) hroom hrest
            obtain ⟨x, xs, rfl⟩ := List.exists_cons_of_ne_nil hne
            have hready : Ready { r with buffer := b', source := s' } :=
              ⟨hsound, hfail.trans h.quiet, fun hended => by
                rw [show b'.ended = false from hend] at hended
                cases hended⟩
            have hun : unread { r with buffer := b', source := s' } = r.unread := by
              show b'.pending ++ s'.rest = r.buffer.pending ++ r.source.rest
              rw [hpend, hbs, List.append_assoc]
            have hless : s'.rest.length < k := hk ▸ Buffer.rest_lt_of_fill hfill
            have hlen : n + (x :: xs).length = b'.pending.length := by
              rw [hpend, List.length_append, hn']
            have hal : Alike r { r with buffer := b', source := s' } := ⟨rfl, rfl, rfl, hmax⟩
            rw [measureFrom_filled hscan hfill, hbs]
            exact (ih s'.rest.length hless hready hlen last rfl).of_alike hal hun

/-! ## The next record -/

/-- The reader after a record of `n` bytes. -/
def advance (r : DelimitedReader) (n : Nat) : DelimitedReader :=
  { r with buffer := r.buffer.consume n, count := r.count + 1 }

theorem next_of_measure {r r' : DelimitedReader} {n : Nat}
    (h : r.measure = (.ok (some n), r')) (ha : Alike r r') :
    r.next = (.ok (some (Division.record r.dialect r.forced
      (r'.buffer.pending.take n, r.count + 1))), r'.advance n) := by
  simp only [next, h, ha.dialect, ha.forced, ha.count, Division.record, advance]

theorem next_of_end {r r' : DelimitedReader} (h : r.measure = (.ok none, r')) :
    r.next = (.ok none, r') := by
  simp only [next, h]

theorem next_of_error {r r' : DelimitedReader} {e : LoadError} (h : r.measure = (.error e, r')) :
    r.next = (.error e, r') := by
  simp only [next, h]

/-- Taking off a record that is pending as a whole leaves a reader that
is between two reads again. -/
theorem ready_advance {r : DelimitedReader} (h : r.Ready) {n : Nat}
    (hn : n ≤ r.buffer.pending.length) :
    (r.advance n).Ready ∧ (r.advance n).unread = r.unread.drop n := by
  refine ⟨⟨h.sound.consume hn, h.quiet, fun he => ?_⟩, ?_⟩
  · obtain ⟨hrest, hroom⟩ := h.exhausted he
    refine ⟨hrest, ?_⟩
    show (r.buffer.consume n).pending.length + 1 < r.buffer.max
    rw [Buffer.pending_consume, List.length_drop]
    omega
  · show (r.buffer.consume n).pending ++ r.source.rest = (r.buffer.pending ++ r.source.rest).drop n
    rw [Buffer.pending_consume, List.drop_append_of_le_length hn]

/-- The outcomes that are left, by the division of what is unread. -/
def expected (r : DelimitedReader) : List (Except LoadError (Option Record)) :=
  (r.dialect.divide r.unread).outcomes r.dialect r.forced r.buffer.max r.count

/-- The next read has the first of some outcomes, and the reader that it
leaves is expected to have the others. -/
inductive Follows (r : DelimitedReader) : List (Except LoadError (Option Record)) → Prop
  | last {stop : Except LoadError (Option Record)} {r' : DelimitedReader}
      (next : r.next = (stop, r')) (ends : ∀ x, stop ≠ .ok (some x)) : Follows r [stop]
  | record {x : Record} {r' : DelimitedReader} (next : r.next = (.ok (some x), r'))
      (ready : r'.Ready) : Follows r (.ok (some x) :: r'.expected)

/-- A segment with a line feed of its own comes next. -/
theorem follows_of_found {r : DelimitedReader} (h : r.Ready) {n : Nat}
    (hscan : scan r.dialect 0 .outside r.unread = .found n) : Follows r r.expected := by
  have hmeets := measureFrom_meets h (Nat.zero_add r.buffer.pending.length) .outside
  change Meets r (scan r.dialect 0 .outside r.unread) r.measure at hmeets
  generalize hmeas : r.measure = out at hmeets
  obtain ⟨-, hle, hdiv⟩ := r.dialect.divideFrom_of_found hscan []
  rw [Nat.sub_zero, List.nil_append] at hdiv
  have hlen : (r.unread.take n).length = n := by
    rw [List.length_take]
    omega
  unfold expected Dialect.divide
  rw [hdiv]
  rw [hscan] at hmeets
  cases hmeets with
  | @found _ r' fits ready alike same held =>
    obtain ⟨hready, hun⟩ := ready_advance ready held
    have hraw : r'.buffer.pending.take n = r.unread.take n := by
      rw [← same, unread, List.take_append_of_le_length held]
    have hexp : (r'.advance n).expected = (r.dialect.divide (r.unread.drop n)).outcomes
        r.dialect r.forced r.buffer.max (r.count + 1) := by
      rw [expected, hun, same]
      show Division.outcomes r'.dialect r'.forced r'.buffer.max (r'.count + 1)
        (r'.dialect.divide (r.unread.drop n)) = _
      rw [alike.dialect, alike.forced, alike.count, alike.max]
    have hnext := next_of_measure hmeas alike
    rw [hraw] at hnext
    rw [Division.outcomes_cons _ _ _ _ (by omega), ← hexp]
    exact .record hnext hready
  | long r' long =>
    rw [Division.outcomes_cons_long _ _ _ _ (by omega)]
    exact .last (next_of_error hmeas) (by simp)

/-- The tail comes next, or nothing. -/
theorem follows_of_unfinished {r : DelimitedReader} (h : r.Ready) {n : Nat} {last : Region}
    (hscan : scan r.dialect 0 .outside r.unread = .unfinished n last) : Follows r r.expected := by
  have hmeets := measureFrom_meets h (Nat.zero_add r.buffer.pending.length) .outside
  change Meets r (scan r.dialect 0 .outside r.unread) r.measure at hmeets
  generalize hmeas : r.measure = out at hmeets
  obtain ⟨hn, hdiv⟩ := r.dialect.divideFrom_of_unfinished hscan []
  rw [Nat.zero_add] at hn
  have hsome : n ≠ 0 → r.unread ≠ [] := fun hz hu => hz (by rw [hn, hu]; rfl)
  have hexp : r.expected
      = Division.outcomes r.dialect r.forced r.buffer.max r.count ⟨[], r.unread, last⟩ := by
    rw [expected, Dialect.divide, hdiv, List.nil_append]
  have hmax := Nat.le_trans h.sound.two_le h.sound.capacity_le
  rw [hscan] at hmeets
  cases hmeets with
  | longTail _ r' long =>
    by_cases hz : n = 0
    · omega
    · rw [hexp, Division.outcomes_tail_long _ _ _ _ (hsome hz) (by omega)]
      exact .last (next_of_error hmeas) (by simp)
  | exhausted _ r' fits =>
    have hu : r.unread = [] := List.eq_nil_of_length_eq_zero hn.symm
    rw [hu] at hscan
    cases hscan
    rw [hexp, hu, Division.outcomes_nil]
    exact .last (next_of_end hmeas) (by simp)
  | quoted r' nonempty fits inside =>
    rw [hexp, Division.outcomes_tail_quoted _ _ _ _ (hsome nonempty) (by omega) inside]
    exact .last (next_of_error hmeas) (by simp)
  | @tail _ _ r' nonempty fits outside sound quiet alike pending rest =>
    have hlen : r'.buffer.pending.length = n + 1 := by
      rw [pending, List.length_append, List.length_singleton, hn]
    have hpend : (r'.advance (n + 1)).buffer.pending = [] := by
      show (r'.buffer.consume (n + 1)).pending = []
      rw [Buffer.pending_consume, ← hlen, List.drop_length]
    have hun : (r'.advance (n + 1)).unread = [] := by
      rw [unread, hpend]
      exact rest
    have hready : (r'.advance (n + 1)).Ready := by
      refine ⟨sound.consume (Nat.le_of_eq hlen.symm), quiet, fun _ => ⟨rest, ?_⟩⟩
      rw [hpend]
      show 0 + 1 < r'.buffer.max
      rw [alike.max]
      omega
    have hover : (r'.advance (n + 1)).expected = [.ok none] := by
      rw [expected, hun]
      exact Division.outcomes_nil ..
    have hnext := next_of_measure hmeas alike
    have htake : r'.buffer.pending.take (n + 1) = r.unread ++ [Csv.lineFeed] := by
      rw [← hlen, List.take_length, pending]
    rw [htake] at hnext
    rw [hexp, Division.outcomes_tail _ _ _ _ (hsome nonempty) (by omega) outside, ← hover]
    exact .record hnext hready

/-- The next read has the first of the outcomes that are expected. -/
theorem follows_expected {r : DelimitedReader} (h : r.Ready) : Follows r r.expected := by
  cases hscan : scan r.dialect 0 .outside r.unread with
  | found n => exact follows_of_found h hscan
  | unfinished n last => exact follows_of_unfinished h hscan

/-! ## Reading to the end -/

/-- The outcomes of the first `n` reads. After the end of the input, or
a failure, there is no further read. -/
def outcomes (r : DelimitedReader) : Nat → List (Except LoadError (Option Record))
  | 0 => []
  | n + 1 =>
    match r.next with
    | (.ok (some x), r) => .ok (some x) :: r.outcomes n
    | (stop, _) => [stop]

/-- Reads from a reader between two reads have the outcomes expected. -/
theorem outcomes_eq_expected {r : DelimitedReader} (h : r.Ready) (n : Nat) :
    r.outcomes n = r.expected.take n := by
  induction n generalizing r with
  | zero => rfl
  | succ n ih =>
    have hf := follows_expected h
    generalize r.expected = outs at hf
    unfold outcomes
    cases hf with
    | @last stop r' next ends =>
      rw [next]
      cases stop with
      | error e => simp
      | ok x =>
        cases x with
        | none => simp
        | some x => exact absurd rfl (ends x)
    | record next ready =>
      rw [next]
      simp only [List.take_succ_cons, ih ready]

/-- A new reader is between two reads, with all of the input unread. -/
theorem ready_start (input : Bytes) (cuts : List Cut) (d : Dialect) (forced : List Bool)
    (size limit : Nat) :
    Ready { source := { rest := input, cuts := cuts }, buffer := .ofSizes size limit,
            dialect := d, forced := forced } :=
  ⟨Buffer.sound_ofSizes size limit, rfl, fun he => nomatch he⟩

/-- A new reader hands out what its input is divided into. -/
theorem outcomes_start (input : Bytes) (cuts : List Cut) (d : Dialect) (forced : List Bool)
    (size limit n : Nat) :
    outcomes
        { source := { rest := input, cuts := cuts }, buffer := .ofSizes size limit,
          dialect := d, forced := forced } n
      = ((d.divide input).outcomes d forced (max 2 (max size limit)) 0).take n := by
  rw [outcomes_eq_expected (ready_start input cuts d forced size limit)]
  unfold expected
  rw [Buffer.max_ofSizes]
  rfl

/-- A new reader does with an input what is done with it in memory, for an
arena of `most` bytes at most. -/
structure Divides (d : Dialect) (forced : List Bool) (input : Bytes) (cuts : List Cut)
    (size limit most : Nat) : Prop where
  /-- What its calls answer, to the first that fails or has no record. -/
  outcomes_eq : ∀ n,
    outcomes
        { source := { rest := input, cuts := cuts }, buffer := .ofSizes size limit,
          dialect := d, forced := forced } n
      = ((d.divide input).outcomes d forced most 0).take n
  /-- Records are numbered from one and have the bytes of their segments. -/
  numbered : ∀ (k : Nat) (x : Record), ((d.divide input).records d forced most 0)[k]? = some x →
    x.number = k + 1 ∧ (d.divide input).segments[k]? = some x.raw
  /-- The call for a record comes back: dividing its bytes ends, and with
  its fields. -/
  returns : ∀ x ∈ (d.divide input).records d forced most 0,
    Splits d { forced := forced } (stripEnd x.raw) x.fields
  /-- The segments are the input, with a line feed where its end lacks one. -/
  segments_eq : (d.divide input).segments.flatten = input ++ (d.divide input).completion
  /-- A reading that nothing stops hands out all of them. -/
  complete : (d.divide input).stop most 0 = .ok none →
    (((d.divide input).records d forced most 0).map Record.raw).flatten
      = input ++ (d.divide input).completion

/-- **What a delimited reader hands out depends on the input, the dialect
and the greatest size of its arena only.** However the source cuts and
interrupts its reads, and whatever size the arena starts with, the
outcomes are those of the whole input divided in memory. -/
theorem outcomes_eq_division {d : Dialect} (hd : d.delimiter ≠ []) (input : Bytes)
    (cuts : List Cut) (forced : List Bool) (size limit : Nat) :
    Divides d forced input cuts size limit (max 2 (max size limit)) where
  outcomes_eq := outcomes_start input cuts d forced size limit
  numbered k x hx := by
    have h := Division.records_getElem? d forced (max 2 (max size limit)) 0 hx
    rwa [Nat.zero_add] at h
  returns x hx := by
    obtain ⟨segment, -, rfl⟩ := List.mem_map.mp hx
    exact splits_split hd forced (stripEnd segment.1)
  segments_eq := d.flatten_segments input
  complete hstop := by
    rw [Division.raw_records_of_stop d forced _ 0 hstop, d.flatten_segments]

/-- A delimiter of two bytes with a read that ends between them, one read
that is interrupted, a line feed in quotes, half a delimiter, and a line
feed that the input lacks. -/
theorem outcomes_eq_division_bars :
    let d : Dialect := { Dialect.csv with delimiter := Bytes.ascii "||" }
    let input := Bytes.ascii "a||\"b\n\"|\nc"
    let cuts := [.atMost 2, .interrupted, .atMost 5]
    d.delimiter ≠ [] ∧ Divides d [] input cuts 2 16 16 ∧
      outcomes
          { source := { rest := input, cuts := cuts }, buffer := .ofSizes 2 16, dialect := d,
            forced := [] } 3
        = [.ok (some ⟨1, Bytes.ascii "a||\"b\n\"|\n",
              [⟨Bytes.ascii "a", false⟩, ⟨Bytes.ascii "b\n|", false⟩], none⟩),
            .ok (some ⟨2, Bytes.ascii "c\n", [⟨Bytes.ascii "c", false⟩], none⟩), .ok none] := by
  intro d input cuts
  have hd : d.delimiter ≠ [] := by decide
  have hdivides := outcomes_eq_division hd input cuts [] 2 16
  refine ⟨hd, hdivides, (hdivides.outcomes_eq 3).trans ?_⟩
  with_unfolding_all rfl

/-- **Without a delimiter a reader is not done with a record.** The end of
the only record is found, as it is in memory, but the record is never
divided, and the call that should hand it out does not come back. -/
theorem endless :
    let d : Dialect := { Dialect.csv with delimiter := [] }
    let input := Bytes.ascii "a\n"
    let reader : DelimitedReader :=
      { source := { rest := input }, buffer := .ofSizes 2 16, dialect := d, forced := [] }
    (d.divide input).segments = [input] ∧ (d.divide input).stop 16 0 = .ok none ∧
      reader.measure.1 = .ok (some 2) ∧ reader.measure.2.buffer.pending.take 2 = input ∧
      (∀ fields, ¬ Splits d { forced := [] } (stripEnd input) fields) ∧
      ¬ Divides d [] input [] 2 16 16 := by
  intro d input reader
  have hnever : ∀ fields, ¬ Splits d { forced := [] } (stripEnd input) fields :=
    not_splits_of_empty rfl rfl (by decide)
  refine ⟨by decide +kernel, by with_unfolding_all rfl, by with_unfolding_all rfl,
    by decide +kernel, hnever, fun hdivides => ?_⟩
  have hrecord : Division.record d [] (input, 1) ∈ (d.divide input).records d [] 16 0 :=
    List.mem_singleton.mpr rfl
  exact hnever _ (hdivides.returns _ hrecord)

end DelimitedReader
end Intake
