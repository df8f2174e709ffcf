import Intake.Proofs.Record.Again
/-!
# The numbers of records

A reader numbers the records of its input from one on, those that it
passes over included, so that the records which it hands out one after
another have numbers one after another (`RecordReader.Yields.numbers`).
-/

namespace Intake

namespace FixedReader

theorem gather_count {r r' : FixedReader} {n : Nat} (h : r.gather = (.ok n, r')) :
    r'.count = r.count := by
  induction hk : r.source.rest.length using Nat.strongRecOn generalizing r with
  | ind k ih =>
    by_cases hheld : r.layout.stride ≤ r.buffer.size
    · rw [gather, if_pos hheld] at h
      cases h
      rfl
    rcases hfill : r.buffer.fill r.source (r.count + 1) with ⟨_ | _ | ⟨x, xs⟩, b, s⟩
    · rw [gather_failed hheld hfill] at h
      cases h
    · rw [gather_ended hheld hfill] at h
      cases h
      rfl
    · rw [gather_filled hheld hfill] at h
      exact ih _ (hk ▸ Buffer.rest_lt_of_fill hfill) (r := { r with buffer := b, source := s }) h rfl

theorem next_number {r r' : FixedReader} {x : Record} (h : r.next = (.ok (some x), r')) :
    x.number = r.count + 1 ∧ r'.count = r.count + 1 := by
  rw [next] at h
  rcases hgather : r.gather with ⟨_ | n, r₁⟩ <;> rw [hgather] at h <;> dsimp only at h
  · cases h
  · have hcount := gather_count hgather
    split at h
    · cases h
    split at h <;>
    · cases h
      exact ⟨congrArg (· + 1) hcount, congrArg (· + 1) hcount⟩

theorem skipFrom_count {wanted left k : Nat} {r r' : FixedReader}
    (h : r.skipFrom wanted left = (.ok k, r')) : r'.count = r.count + left := by
  induction left generalizing r with
  | zero =>
    cases h
    rfl
  | succ left ih =>
    rw [skipFrom] at h
    rcases hgather : r.gather with ⟨_ | n, r₁⟩ <;> rw [hgather] at h <;> dsimp only at h
    · cases h
    · have hcount := gather_count hgather
      split at h
      · cases h
      · have hrest := ih (r := { r₁ with
          buffer := r₁.buffer.consume r₁.layout.stride, count := r₁.count + 1 }) h
        dsimp only at hrest
        omega

end FixedReader

namespace DelimitedReader

theorem measure_count {r r' : DelimitedReader} {n : Nat} (hr : r.buffer.Sound)
    (h : r.measure = (.ok (some n), r')) :
    r'.count = r.count ∧ r'.buffer.Sound ∧ n ≤ r'.buffer.pending.length := by
  obtain ⟨halike, hsound, hle, -⟩ := ends_of_measureFrom hr (List.nil_append _).symm rfl h
  exact ⟨halike.count, hsound, hle⟩

theorem next_number {r r' : DelimitedReader} {x : Record} (hr : r.buffer.Sound)
    (h : r.next = (.ok (some x), r')) : x.number = r.count + 1 ∧ r'.count = r.count + 1 := by
  rw [next] at h
  rcases hmeasure : r.measure with ⟨_ | _ | n, r₁⟩ <;> rw [hmeasure] at h <;> cases h
  obtain ⟨hcount, -⟩ := measure_count hr hmeasure
  exact ⟨congrArg (· + 1) hcount, congrArg (· + 1) hcount⟩

theorem skipFrom_count {wanted left k : Nat} {r r' : DelimitedReader} (hr : r.buffer.Sound)
    (h : r.skipFrom wanted left = (.ok k, r')) : r'.count = r.count + left := by
  induction left generalizing r with
  | zero =>
    cases h
    rfl
  | succ left ih =>
    rw [skipFrom] at h
    rcases hmeasure : r.measure with ⟨_ | _ | n, r₁⟩ <;> rw [hmeasure] at h <;> dsimp only at h
    · cases h
    · cases h
    · obtain ⟨hcount, hsound, hle⟩ := measure_count hr hmeasure
      have hrest := ih (r := r₁.advance n) (hsound.consume hle) h
      dsimp only [advance] at hrest
      omega

end DelimitedReader

namespace RowReader

theorem pull_count {r r' : RowReader} {row : SourceRow} (h : r.pull = (.ok (some row), r')) :
    r'.count = r.count + 1 := by
  unfold pull at h
  split at h <;> cases h
  rfl

theorem next_number {r r' : RowReader} {x : Record} (h : r.next = (.ok (some x), r')) :
    x.number = r.count + 1 ∧ r'.count = r.count + 1 := by
  rw [next] at h
  rcases hpull : r.pull with ⟨_ | _ | row, r₁⟩ <;> rw [hpull] at h <;> cases h
  exact ⟨pull_count hpull, pull_count hpull⟩

theorem skipFrom_count {wanted left k : Nat} {r r' : RowReader}
    (h : r.skipFrom wanted left = (.ok k, r')) : r'.count = r.count + left := by
  induction left generalizing r with
  | zero =>
    cases h
    rfl
  | succ left ih =>
    rw [skipFrom] at h
    rcases hpull : r.pull with ⟨_ | _ | row, r₁⟩ <;> rw [hpull] at h <;> dsimp only at h
    · cases h
    · cases h
    · have hone := pull_count hpull
      have hrest := ih h
      omega

end RowReader

namespace RecordReader

/-- How many records a reader has handed out or passed over. -/
def count : RecordReader → Nat
  | delimited r => r.count
  | fixed r => r.count
  | rows r => r.count

section Numbers

variable {r r' : RecordReader} {x : Record} {xs : List Record} {n k : Nat}

/-- **The next record has the next number.** -/
theorem next_number (hr : r.InOrder) (h : r.next = (.ok (some x), r')) :
    x.number = r.count + 1 ∧ r'.count = r.count + 1 := by
  cases r with
  | delimited r =>
    simp only [next] at h
    rcases hnext : r.next with ⟨outcome, r₁⟩
    rw [hnext] at h
    cases h
    exact DelimitedReader.next_number hr hnext
  | fixed r =>
    simp only [next] at h
    rcases hnext : r.next with ⟨outcome, r₁⟩
    rw [hnext] at h
    cases h
    exact FixedReader.next_number hnext
  | rows r =>
    simp only [next] at h
    rcases hnext : r.next with ⟨outcome, r₁⟩
    rw [hnext] at h
    cases h
    exact RowReader.next_number hnext

theorem skip_count (hr : r.InOrder) (h : r.skip n = (.ok k, r')) : r'.count = r.count + n := by
  cases r with
  | delimited r =>
    simp only [skip] at h
    rcases hskip : r.skip n with ⟨outcome, r₁⟩
    rw [hskip] at h
    cases h
    exact DelimitedReader.skipFrom_count hr hskip
  | fixed r =>
    simp only [skip] at h
    rcases hskip : r.skip n with ⟨outcome, r₁⟩
    rw [hskip] at h
    cases h
    exact FixedReader.skipFrom_count hskip
  | rows r =>
    simp only [skip] at h
    rcases hskip : r.skip n with ⟨outcome, r₁⟩
    rw [hskip] at h
    cases h
    exact RowReader.skipFrom_count hskip

/-- **Records that are handed out one after another have numbers one after
another.** -/
theorem Yields.numbers (h : r.Yields xs r') (hr : r.InOrder) :
    xs.map Record.number = List.range' (r.count + 1) xs.length := by
  induction h with
  | nil => rfl
  | cons hnext _ ih =>
    obtain ⟨hnumber, hcount⟩ := next_number hr hnext
    rw [List.map_cons, List.length_cons, List.range'_succ, hnumber, ih (next_manner hr hnext).2.1,
      hcount]

/-- A reader that starts has counted nothing. -/
theorem start_count {source : Source} {o : Options} {schema : Schema}
    (h : start source o schema = .ok r) : r.InOrder ∧ r.count = 0 := by
  cases started_of_start h with
  | delimited => exact ⟨Buffer.sound_ofSizes _ _, rfl⟩
  | fixed => exact ⟨Buffer.counted_ofSizes _ _, rfl⟩
  | rows => exact ⟨trivial, rfl⟩

/-- The records behind those that are passed over. -/
theorem numbers_of_skip {source : Source} {o : Options} {schema : Schema}
    (hstart : start source o schema = .ok r) {mid : RecordReader} (hskip : r.skip n = (.ok k, mid))
    (h : mid.Yields xs r') : xs.map Record.number = List.range' (n + 1) xs.length := by
  obtain ⟨hinOrder, hzero⟩ := start_count hstart
  have hcount := skip_count hinOrder hskip
  rw [h.numbers (skip_manner hinOrder hskip).1, hcount, hzero, Nat.zero_add]

end Numbers

end RecordReader
end Intake
