import Intake.Layout.Notation
import Intake.Proofs.Record.Window
/-!
# Input in slices of one stride

What a layout makes of an input that is all in memory: a record for every
slice of one stride, each of its fields made of the bytes from its offset
to its end, and one record without fields for what is left over
(`Layout.records`). A reader of the layout hands out these records one by
one and nothing after them, however its source cuts its reads and whatever
the sizes that its arena was asked for (`FixedReader.calls_eq_records`).

The arena is made for one record and the byte that is kept free, and that
is exactly enough: less than a record is pending whenever more is read, so
a slide always finds room and the arena keeps the size that it started
with (`gather_capacity`).
-/

namespace Intake

/-! ## An arena that is large enough -/

namespace Buffer

/-- An arena with room left for a byte keeps its size. -/
theorem fill_capacity {b : Buffer} (h : b.Sound) (s : ByteSource) (record : Nat)
    (hroom : b.pending.length + 1 < b.capacity) :
    (b.fill s record).buffer.capacity = b.capacity := by
  rw [h.fill_capacity_eq, if_neg (by omega)]

end Buffer

namespace FixedReader

/-- **An arena with room for a record keeps its size**, also where the
source fails. -/
theorem gather_capacity {r r' : FixedReader} {out : Except LoadError Nat} (hr : r.buffer.Sound)
    (hroom : r.layout.stride < r.buffer.capacity) (h : r.gather = (out, r')) :
    r'.buffer.capacity = r.buffer.capacity := by
  induction hk : r.source.rest.length using Nat.strongRecOn generalizing r with
  | ind k ih =>
    by_cases hheld : r.layout.stride ≤ r.buffer.size
    · rw [gather, if_pos hheld] at h
      cases h
      rfl
    have hsize : r.buffer.size = r.buffer.pending.length := Buffer.Counted.size_eq hr.used_eq
    have hcapacity := Buffer.fill_capacity hr r.source (r.count + 1) (by omega)
    rcases hfill : r.buffer.fill r.source (r.count + 1) with ⟨_ | _ | ⟨x, xs⟩, b, s⟩ <;>
      rw [hfill] at hcapacity
    · rw [gather_failed hheld hfill] at h
      cases h
      exact hcapacity
    · rw [gather_ended hheld hfill] at h
      cases h
      exact hcapacity
    · obtain ⟨hsound, -⟩ := hr.fill hfill
      have hroom' : r.layout.stride < b.capacity := Nat.lt_of_lt_of_eq hroom hcapacity.symm
      rw [gather_filled hheld hfill] at h
      exact (ih _ (hk ▸ Buffer.rest_lt_of_fill hfill) (r := { r with buffer := b, source := s })
        hsound hroom' h rfl).trans hcapacity

end FixedReader

/-! ## The slices of an input -/

/-- A reader takes a field from the bytes between its places. -/
theorem FieldSpec.read_eq_decode (f : FieldSpec) (preserveBlanks : Bool) (record : Bytes) :
    f.read preserveBlanks record = f.decode preserveBlanks (record.extract f.offset f.stop) := by
  rw [FieldSpec.read, List.extract_eq_take_drop, FieldSpec.stop, Nat.add_sub_cancel_left]

namespace Layout

/-- The record of the slice after `k` others, all of it being there. A
field is what the part of the slice between its two places comes to. -/
def whole (layout : Layout) (preserveBlanks : Bool) (input : Bytes) (k : Nat) : Record :=
  let raw := (input.drop (k * layout.stride)).take layout.stride
  { number := k + 1
    raw := raw
    fields := layout.fields.map fun f => f.decode preserveBlanks (raw.extract f.offset f.stop) }

/-- What is left over behind the slices, if anything: a record without
fields that says how much of it there is. -/
def remainder (layout : Layout) (input : Bytes) : List Record :=
  if input.length % layout.stride = 0 then []
  else
    [{ number := input.length / layout.stride + 1
       raw := input.drop (input.length / layout.stride * layout.stride)
       fields := []
       shortfall := some ⟨input.length % layout.stride, layout.stride⟩ }]

/-- The records of an input. -/
def records (layout : Layout) (preserveBlanks : Bool) (input : Bytes) : List Record :=
  (List.range (input.length / layout.stride)).map (layout.whole preserveBlanks input)
    ++ layout.remainder input

section Records

variable {layout : Layout} {preserveBlanks : Bool} {input : Bytes} {k : Nat}

/-- Behind a slice, whole or not, are the bytes of the slices after it. -/
theorem drop_slice (layout : Layout) (input : Bytes) (k : Nat) :
    (input.drop (k * layout.stride)).drop (min layout.stride (input.length - k * layout.stride))
      = input.drop ((k + 1) * layout.stride) := by
  have hsucc : (k + 1) * layout.stride = k * layout.stride + layout.stride :=
    Nat.succ_mul k layout.stride
  rw [List.drop_drop, hsucc]
  by_cases hwhole : (k + 1) * layout.stride ≤ input.length
  · rw [Nat.min_eq_left (by omega)]
  · rw [List.drop_of_length_le (by omega), List.drop_of_length_le (by omega)]

/-- A slice that is all there. -/
theorem getElem?_records_whole (h : (k + 1) * layout.stride ≤ input.length)
    (hpos : 0 < layout.stride) :
    (layout.records preserveBlanks input)[k]? = some (layout.whole preserveBlanks input k) := by
  have hk : k < input.length / layout.stride := (Nat.le_div_iff_mul_le hpos).mpr h
  rw [records, List.getElem?_append_left (by simpa using hk), List.getElem?_map,
    List.getElem?_range hk, Option.map_some]

/-- A slice of which a part is there. -/
theorem getElem?_records_part (h : k * layout.stride < input.length)
    (hend : input.length < (k + 1) * layout.stride) :
    (layout.records preserveBlanks input)[k]?
      = some { number := k + 1
               raw := input.drop (k * layout.stride)
               fields := []
               shortfall := some ⟨input.length - k * layout.stride, layout.stride⟩ } := by
  have hk : input.length / layout.stride = k :=
    Nat.div_eq_of_lt_le (Nat.le_of_lt h) hend
  have hmod : input.length % layout.stride = input.length - k * layout.stride := by
    rw [Nat.mod_eq_sub_mul_div, hk, Nat.mul_comm]
  rw [records, List.getElem?_append_right (by simp [hk]), remainder, if_neg (by omega), hk, hmod]
  simp

/-- Behind the last byte there is no slice. -/
theorem getElem?_records_none (h : input.length ≤ k * layout.stride) (hpos : 0 < layout.stride) :
    (layout.records preserveBlanks input)[k]? = none := by
  have hdiv : input.length / layout.stride ≤ k := by
    rw [Nat.div_le_iff_le_mul_add_pred hpos, Nat.mul_comm]
    omega
  rw [List.getElem?_eq_none_iff, records, List.length_append, List.length_map, List.length_range,
    remainder]
  split
  · exact hdiv
  next hrest =>
  have hlt : input.length / layout.stride ≠ k := by
    rintro rfl
    have hle := Nat.div_mul_le_self input.length layout.stride
    have hmod : input.length % layout.stride
        = input.length - layout.stride * (input.length / layout.stride) :=
      Nat.mod_eq_sub_mul_div
    rw [Nat.mul_comm] at hmod
    omega
  show input.length / layout.stride + 1 ≤ k
  omega

end Records

/-- A layout that is accepted has its fields within the record. -/
theorem Accepted.stop_le {layout : Layout} (h : layout.Accepted) {f : FieldSpec}
    (hf : f ∈ layout.fields) : f.stop ≤ layout.stride := by
  obtain ⟨fields, stride, hmade⟩ := h
  exact (stop_le_of_ofFields hmade hf).2

/-- Notations write only layouts that are accepted. -/
theorem accepted_of_ofNotation {specs : List String} {stride : Option Nat} {layout : Layout}
    (h : ofNotation specs stride = .ok layout) : layout.Accepted := by
  unfold ofNotation at h
  split at h
  · cases h
  · exact ⟨_, _, h⟩

end Layout

/-! ## One call after another -/

namespace FixedReader

/-- What the next `n` calls for a record answer, and the reader after
them. -/
def calls (r : FixedReader) : Nat → List (Except LoadError (Option Record)) × FixedReader
  | 0 => ([], r)
  | n + 1 =>
    let (out, r) := r.next
    let (outs, r) := r.calls n
    (out :: outs, r)

/-- A reader that has handed out the slices before slice `k` of an input. -/
structure At (layout : Layout) (preserveBlanks : Bool) (input : Bytes) (k : Nat)
    (r : FixedReader) : Prop where
  ready : r.Ready
  room : layout.stride < r.buffer.capacity
  layout_eq : r.layout = layout
  blanks_eq : r.preserveBlanks = preserveBlanks
  unread_eq : r.unread = input.drop (k * layout.stride)
  /-- A reader counts no further than there are bytes. -/
  count_eq : k * layout.stride < input.length → r.count = k

variable {layout : Layout} {preserveBlanks : Bool} {input : Bytes} {k : Nat} {r : FixedReader}

/-- Wherever it is, the next record is the one of the next slice. -/
theorem At.next (h : r.At layout preserveBlanks input k) (hpos : 0 < layout.stride) :
    ∃ r', r.next = (.ok (layout.records preserveBlanks input)[k]?, r') ∧
      r'.At layout preserveBlanks input (k + 1) ∧
      r'.buffer.capacity = r.buffer.capacity := by
  obtain ⟨hready, hroom, rfl, rfl, hunread, hcount⟩ := h
  obtain ⟨r₁, hgathers⟩ := hready.gathers
  have hcapacity := gather_capacity hready.sound hroom hgathers.gather_eq
  have htaken := hgathers.taken
  have hleft := hgathers.left
  obtain ⟨hgather, hready₁, -, hheld, hlayout, hblanks, hcount₁⟩ := hgathers
  have hsucc : (k + 1) * r.layout.stride = k * r.layout.stride + r.layout.stride :=
    Nat.succ_mul k r.layout.stride
  rw [hunread, List.length_drop] at hgather hheld htaken hleft
  rw [Layout.drop_slice] at hleft
  by_cases hnone : input.length ≤ k * r.layout.stride
  · have hzero : min r.layout.stride (input.length - k * r.layout.stride) = 0 := by omega
    rw [hzero] at hgather hleft
    refine ⟨r₁, ?_, ⟨hready₁, by rw [hcapacity]; exact hroom, hlayout, hblanks, hleft, ?_⟩,
      hcapacity⟩
    · rw [FixedReader.next, hgather, Layout.getElem?_records_none hnone hpos]
      rfl
    · omega
  have hat : (r.count : Nat) = k := hcount (Nat.lt_of_not_le hnone)
  refine ⟨{ r₁ with
      buffer := r₁.buffer.consume (min r.layout.stride (input.length - k * r.layout.stride))
      count := r₁.count + 1 }, ?_,
    ⟨⟨hready₁.sound.consume hheld, hready₁.quiet, hready₁.room, hready₁.exhausted⟩,
      by rw [← hcapacity] at hroom; exact hroom, hlayout, hblanks, hleft, fun _ => ?_⟩, hcapacity⟩
  · rw [FixedReader.next, hgather]
    dsimp only
    rw [if_neg (by omega), htaken, hlayout, hblanks, hcount₁, hat]
    by_cases hwhole : (k + 1) * r.layout.stride ≤ input.length
    · rw [Nat.min_eq_left (by omega), if_neg (Nat.lt_irrefl _),
        Layout.getElem?_records_whole hwhole hpos, Layout.whole]
      simp only [FieldSpec.read_eq_decode]
    · rw [Nat.min_eq_right (by omega), if_pos (by omega),
        Layout.getElem?_records_part (Nat.lt_of_not_le hnone) (Nat.lt_of_not_le hwhole),
        List.take_of_length_le (by rw [List.length_drop])]
  · show r₁.count + 1 = k + 1
    rw [hcount₁, hat]

/-- And so are the ones after it. -/
theorem At.calls (h : r.At layout preserveBlanks input k) (hpos : 0 < layout.stride) (n : Nat) :
    (r.calls n).1
        = (List.range' k n).map (fun i => .ok (layout.records preserveBlanks input)[i]?) ∧
      (r.calls n).2.buffer.capacity = r.buffer.capacity := by
  induction n generalizing k r with
  | zero => exact ⟨rfl, rfl⟩
  | succ n ih =>
    obtain ⟨r', hnext, hat, hcapacity⟩ := h.next hpos
    obtain ⟨houts, hkept⟩ := ih hat
    rw [FixedReader.calls, hnext, List.range'_succ, List.map_cons]
    exact ⟨congrArg (_ :: ·) houts, hkept.trans hcapacity⟩

/-- A reader that starts is before the first slice. -/
theorem at_start (input : Bytes) (cuts : List Cut) (layout : Layout) (preserveBlanks : Bool)
    (size limit : Nat) :
    (start { rest := input, cuts := cuts } layout preserveBlanks size limit).At layout
      preserveBlanks input 0 where
  ready := ready_start input cuts layout preserveBlanks size limit
  room := by
    show layout.stride < Nat.max (max size (layout.stride + 1)) 2
    have hle : max size (layout.stride + 1) ≤ Nat.max (max size (layout.stride + 1)) 2 :=
      Nat.le_max_left _ _
    omega
  layout_eq := rfl
  blanks_eq := rfl
  unread_eq := by
    show [] ++ input = input.drop (0 * layout.stride)
    rw [Nat.zero_mul, List.drop_zero, List.nil_append]
  count_eq _ := rfl

/-- **A reader hands out the records of the slices and nothing else**, in
their order, with all their bytes and fields, and then no more. The bytes
that a field is decoded from are all within its record. A reader never
fails, whatever the sizes it was asked for and however its source cuts its
reads, and its arena, which is no larger than can be addressed, keeps its
size. -/
theorem calls_eq_records {specs : List String} {stride : Option Nat} {layout : Layout}
    (h : Layout.ofNotation specs stride = .ok layout) (hstride : layout.stride < Layout.maxPlace)
    (input : Bytes) (cuts : List Cut) (preserveBlanks : Bool) (size limit n : Nat) :
    let r := start { rest := input, cuts := cuts } layout preserveBlanks size limit
    (r.calls n).1
        = (List.range n).map (fun k => .ok (layout.records preserveBlanks input)[k]?) ∧
      (r.calls n).2.buffer.capacity = r.buffer.capacity ∧
      (size ≤ Layout.maxPlace → r.buffer.capacity ≤ Layout.maxPlace) ∧
      ∀ f ∈ layout.fields, f.stop ≤ layout.stride := by
  intro r
  have haccepted := Layout.accepted_of_ofNotation h
  obtain ⟨houts, hcapacity⟩ :=
    (at_start input cuts layout preserveBlanks size limit).calls haccepted.stride_pos n
  refine ⟨by rw [List.range_eq_range']; exact houts, hcapacity, fun hsize => ?_,
    fun _ => haccepted.stop_le⟩
  have htwo : 2 ≤ Layout.maxPlace := by decide
  exact Nat.max_le.mpr ⟨Nat.max_le.mpr ⟨hsize, hstride⟩, htwo⟩

/-! ## Two records and a part of one -/

/-- A label, two numbers and a byte that is in no field. -/
def labelAndNumbers : Layout :=
  ⟨[{ kind := .char, offset := 0, length := 3 },
    { kind := .integer, offset := 3, length := 2, nullIf := some [0, 0] },
    { kind := .float, offset := 5, length := 4 }], 10⟩

theorem ofNotation_labelAndNumbers :
    Layout.ofNotation ["CHAR(3)", "SMALLINT NULLIF 0000", "FLOAT"] (some 10)
      = .ok labelAndNumbers := by
  have hfields : Layout.readFields 1 0 ["CHAR(3)", "SMALLINT NULLIF 0000", "FLOAT"]
      = .ok labelAndNumbers.fields := by decide +kernel
  have hsorted : (Layout.extents 1 labelAndNumbers.fields).mergeSort Layout.Extent.before
      = Layout.extents 1 labelAndNumbers.fields := List.mergeSort_of_pairwise (by decide)
  simp only [Layout.ofNotation, hfields, Layout.ofFields, hsorted]
  decide +kernel

/-- The reads end inside the first record and inside the second. The first
label is filled up with blanks, which do not count, and the second has one
that does. -/
theorem calls_labelAndNumbers :
    let first := [0x41, 0x20, 0x20, 0xFE, 0xFF, 0, 0, 0xC0, 0x3F, 0]
    let second := [0x42, 0x20, 0x78, 0, 0, 0, 0, 0x80, 0xBF, 0xFF]
    Layout.ofNotation ["CHAR(3)", "SMALLINT NULLIF 0000", "FLOAT"] (some 10)
        = .ok labelAndNumbers ∧
      labelAndNumbers.stride < Layout.maxPlace ∧
      ((start
          { rest := first ++ second ++ [0x43]
            cuts := [.interrupted, .atMost 1, .interrupted, .atMost 11] }
          labelAndNumbers false 1 0).calls 4).1
        = [.ok (some ⟨1, first,
              [⟨Bytes.ascii "A", false⟩, ⟨Bytes.ascii "-2", false⟩, ⟨Bytes.ascii "1.5", false⟩],
              none⟩),
            .ok (some ⟨2, second,
              [⟨Bytes.ascii "B x", false⟩, ⟨[], true⟩, ⟨Bytes.ascii "-1", false⟩], none⟩),
            .ok (some ⟨3, [0x43], [], some ⟨1, 10⟩⟩),
            .ok none] := by
  intro first second
  have hstride : labelAndNumbers.stride < Layout.maxPlace := by decide
  refine ⟨ofNotation_labelAndNumbers, hstride, ?_⟩
  rw [(calls_eq_records ofNotation_labelAndNumbers hstride (first ++ second ++ [0x43])
    [.interrupted, .atMost 1, .interrupted, .atMost 11] false 1 0 4).1]
  decide +kernel

end FixedReader
end Intake
