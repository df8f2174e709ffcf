import Intake.Queue.Frame
/-!
# Frames read back

What a reader makes of the bytes of a frame: the row and the record that
went into it. Each reader is paired with the bytes it reads, and the law
of a pair holds before any further bytes, so that the laws of the parts
chain into the law of the whole (`decode_encode`).

The only thing that can go wrong is a count that does not fit its eight
bytes. No list of a frame is longer than the frame, so it is enough to
bound that.
-/

namespace Intake.Frame

/-! ## Numbers -/

theorem takeWord_append {width n : Nat} (h : n < Nat.pow 256 width) (rest : Bytes) :
    takeWord width (Bytes.littleEndian width n ++ rest) = .ok (n, rest) := by
  have hlen : (Bytes.littleEndian width n).length = width := Bytes.length_littleEndian width n
  have htake : (Bytes.littleEndian width n ++ rest).take width = Bytes.littleEndian width n :=
    List.take_left' hlen
  have hdrop : (Bytes.littleEndian width n ++ rest).drop width = rest := List.drop_left' hlen
  rw [takeWord, htake, hdrop, if_neg (by omega), Bytes.unsigned_littleEndian,
    Nat.mod_eq_of_lt h]

/-- A length is read back where it fits its four bytes. -/
theorem unsigned_lengthBytes {n : Nat} (h : n < Nat.pow 256 4) :
    Bytes.unsigned (lengthBytes n) = n := by
  rw [lengthBytes, Bytes.unsigned_littleEndian, Nat.mod_eq_of_lt h]

theorem length_lengthBytes (n : Nat) : (lengthBytes n).length = 4 :=
  Bytes.length_littleEndian 4 n

/-- A number in two's complement is read back where it is in range. -/
theorem signed_wordBytes {width : Nat} {n : Int} (hlow : -(Nat.pow 256 width : Nat) ≤ 2 * n)
    (hhigh : 2 * n < (Nat.pow 256 width : Nat)) : Bytes.signed (wordBytes width n) = n := by
  have hspan : (0 : Int) < (Nat.pow 256 width : Nat) := by omega
  have hnonneg : 0 ≤ n % (Nat.pow 256 width : Nat) := Int.emod_nonneg _ (by omega)
  have hlt : n % (Nat.pow 256 width : Nat) < (Nat.pow 256 width : Nat) :=
    Int.emod_lt_of_pos _ hspan
  have hvalue : Bytes.unsigned (wordBytes width n) = (n % (Nat.pow 256 width : Nat)).toNat := by
    rw [wordBytes, Bytes.unsigned_littleEndian, Nat.mod_eq_of_lt (by omega)]
  have hlen : (wordBytes width n).length = width := Bytes.length_littleEndian width _
  unfold Bytes.signed
  dsimp only
  rw [hvalue, hlen]
  by_cases hneg : n < 0
  · have hmod : n % (Nat.pow 256 width : Nat) = n + (Nat.pow 256 width : Nat) := by
      rw [← Int.add_emod_right]
      exact Int.emod_eq_of_lt (by omega) (by omega)
    rw [hmod, if_neg (by omega)]
    omega
  · have hmod : n % (Nat.pow 256 width : Nat) = n := Int.emod_eq_of_lt (by omega) (by omega)
    rw [hmod, if_pos (by omega)]
    omega

theorem takeSigned_append (width : Nat) (n : Int) (hlow : -(Nat.pow 256 width : Nat) ≤ 2 * n)
    (hhigh : 2 * n < (Nat.pow 256 width : Nat)) (rest : Bytes) :
    takeSigned width (wordBytes width n ++ rest) = .ok (n, rest) := by
  have hlen : (wordBytes width n).length = width := Bytes.length_littleEndian width _
  rw [takeSigned, List.take_left' hlen, List.drop_left' hlen, if_neg (by omega),
    signed_wordBytes hlow hhigh]

/-! ## Lists -/

/-- As many things as were written are read back one by one. -/
theorem takeMany_flatMap {α : Type} {one : Reader α} {bytes : α → Bytes} (xs acc : List α)
    (rest : Bytes) (h : ∀ x ∈ xs, ∀ rest, one (bytes x ++ rest) = .ok (x, rest)) :
    takeMany one xs.length acc (xs.flatMap bytes ++ rest) = .ok (acc.reverse ++ xs, rest) := by
  induction xs generalizing acc with
  | nil => rw [List.length_nil, List.flatMap_nil, List.nil_append, takeMany, List.append_nil]
  | cons x xs ih =>
    rw [List.length_cons, List.flatMap_cons, List.append_assoc, takeMany,
      h x (List.mem_cons_self ..)]
    dsimp only
    rw [ih (x :: acc) (fun y hy => h y (List.mem_cons_of_mem _ hy)), List.reverse_cons,
      List.append_assoc, List.singleton_append]

theorem takeList_append {α : Type} {one : Reader α} {bytes : α → Bytes} (xs : List α)
    (rest : Bytes) (hcount : xs.length < Nat.pow 256 8)
    (h : ∀ x ∈ xs, ∀ rest, one (bytes x ++ rest) = .ok (x, rest)) :
    takeList one (countBytes xs.length ++ xs.flatMap bytes ++ rest) = .ok (xs, rest) := by
  rw [List.append_assoc, takeList, countBytes, takeWord_append hcount]
  exact takeMany_flatMap xs [] rest h

theorem takeByte_append (b : UInt8) (rest : Bytes) : takeByte ([b] ++ rest) = .ok (b, rest) := rfl

theorem takeFlag_append (b : Bool) (rest : Bytes) :
    takeFlag ([if b then 1 else 0] ++ rest) = .ok (b, rest) := by
  cases b with
  | false => rfl
  | true => rfl

/-- Bytes with their count are read back. -/
theorem takeList_stringBytes (bs rest : Bytes) (hcount : bs.length < Nat.pow 256 8) :
    takeList takeByte (stringBytes bs ++ rest) = .ok (bs, rest) := by
  have hsingle : bs.flatMap (fun b => [b]) = bs := List.flatMap_singleton' bs
  have hread := takeList_append bs rest hcount (fun b _ => takeByte_append b)
  rw [hsingle] at hread
  exact hread

/-! ## Values -/

/-- The kind of a value is what its first four bytes say. -/
theorem takeWord_kind {kind : Nat} (h : kind < 7) (bs : Bytes) :
    takeWord 4 (Bytes.littleEndian 4 kind ++ bs) = .ok (kind, bs) := by
  apply takeWord_append
  exact Nat.lt_trans h (by decide)

theorem mapped_ok {α β : Type} {f : α → β} {r : Reader α} {bs rest : Bytes} {x : α}
    (h : r bs = .ok (x, rest)) : mapped f r bs = .ok (f x, rest) := by
  rw [mapped, h]

/-- Every value is read back, unless it is a text beyond all counts. -/
theorem takeValue_append (v : Value) (rest : Bytes) (h : (valueBytes v).length < Nat.pow 256 8) :
    takeValue (valueBytes v ++ rest) = .ok (v, rest) := by
  cases v with
  | null =>
    rw [valueBytes, takeValue, takeWord_kind (by decide)]
    rfl
  | int16 n =>
    have hspan : Nat.pow 256 2 = 65536 := by decide
    have hlow := Int16.le_toInt n
    have hhigh := Int16.toInt_lt n
    have hread := takeSigned_append 2 n.toInt (by omega) (by omega) rest
    rw [valueBytes, List.append_assoc, takeValue, takeWord_kind (by decide)]
    exact (mapped_ok hread).trans (by rw [Int16.ofInt_toInt])
  | int32 n =>
    have hspan : Nat.pow 256 4 = 4294967296 := by decide
    have hlow := Int32.le_toInt n
    have hhigh := Int32.toInt_lt n
    have hread := takeSigned_append 4 n.toInt (by omega) (by omega) rest
    rw [valueBytes, List.append_assoc, takeValue, takeWord_kind (by decide)]
    exact (mapped_ok hread).trans (by rw [Int32.ofInt_toInt])
  | int64 n =>
    have hspan : Nat.pow 256 8 = 18446744073709551616 := by decide
    have hlow := Int64.le_toInt n
    have hhigh := Int64.toInt_lt n
    have hread := takeSigned_append 8 n.toInt (by omega) (by omega) rest
    rw [valueBytes, List.append_assoc, takeValue, takeWord_kind (by decide)]
    exact (mapped_ok hread).trans (by rw [Int64.ofInt_toInt])
  | float64 x =>
    have hread : takeWord 8 (Bytes.littleEndian 8 x.bits.toNat ++ rest) = .ok (_, rest) :=
      takeWord_append x.bits.toNat_lt rest
    rw [valueBytes, List.append_assoc, takeValue, takeWord_kind (by decide)]
    exact (mapped_ok hread).trans (by rw [Numeral.Binary64.ofBits, UInt64.ofNat_toNat])
  | bool b =>
    rw [valueBytes, List.append_assoc, takeValue, takeWord_kind (by decide)]
    exact mapped_ok (takeFlag_append b rest)
  | text bs =>
    have hcount : bs.length < Nat.pow 256 8 := by
      rw [valueBytes, List.length_append, stringBytes, List.length_append] at h
      omega
    rw [valueBytes, List.append_assoc, takeValue, takeWord_kind (by decide)]
    exact mapped_ok (takeList_stringBytes bs rest hcount)

/-- A value takes at least the four bytes of its kind. -/
theorem four_le_length_valueBytes (v : Value) : 4 ≤ (valueBytes v).length := by
  have hkind : ∀ n, (Bytes.littleEndian 4 n).length = 4 := Bytes.length_littleEndian 4
  cases v with
  | null => exact Nat.le_of_eq (hkind 0).symm
  | _ =>
    rw [valueBytes, List.length_append, hkind]
    omega

/-! ## Frames -/

/-- No list is longer than its parts together, if each has a part. -/
theorem length_le_flatMap {α : Type} {bytes : α → Bytes} (xs : List α)
    (h : ∀ x ∈ xs, 0 < (bytes x).length) : xs.length ≤ (xs.flatMap bytes).length := by
  induction xs with
  | nil => exact Nat.zero_le _
  | cons x xs ih =>
    have hx := h x (List.mem_cons_self ..)
    have hxs := ih (fun y hy => h y (List.mem_cons_of_mem _ hy))
    rw [List.flatMap_cons, List.length_append, List.length_cons]
    omega

theorem length_le_of_mem_flatMap {α : Type} {bytes : α → Bytes} {xs : List α} {x : α}
    (h : x ∈ xs) : (bytes x).length ≤ (xs.flatMap bytes).length := by
  induction xs with
  | nil => cases h
  | cons y ys ih =>
    rw [List.flatMap_cons, List.length_append]
    rcases List.mem_cons.mp h with rfl | hys
    · omega
    · have := ih hys
      omega

theorem length_encode (row : Row) (raw : Bytes) :
    (encode row raw).length
      = 24 + (row.values.flatMap valueBytes).length + row.nulls.length + raw.length := by
  simp only [encode, countBytes, stringBytes, List.length_append, List.length_map,
    Bytes.length_littleEndian]
  omega

/-- A frame is never so short that its length could be taken for the end
of the stream. -/
theorem terminator_lt_length_encode (row : Row) (raw : Bytes) :
    terminator < (encode row raw).length := by
  rw [length_encode, terminator]
  omega

/-- A frame is read back as the row and the record that it was made of. -/
theorem decode_encode (row : Row) (raw : Bytes) (h : (encode row raw).length < Nat.pow 256 8) :
    decode (encode row raw) = .ok (row, raw) := by
  have hlen := length_encode row raw
  have hvalues : row.values.length < Nat.pow 256 8 := by
    have hle : row.values.length ≤ (row.values.flatMap valueBytes).length :=
      length_le_flatMap row.values
        (fun v _ => Nat.lt_of_lt_of_le (by decide) (four_le_length_valueBytes v))
    omega
  have hvalue : ∀ v ∈ row.values, ∀ rest, takeValue (valueBytes v ++ rest) = .ok (v, rest) := by
    intro v hv rest
    have hle : (valueBytes v).length ≤ (row.values.flatMap valueBytes).length :=
      length_le_of_mem_flatMap hv
    exact takeValue_append v rest (by omega)
  have hflags : row.nulls.map (fun b => if b then (1 : UInt8) else 0)
      = row.nulls.flatMap fun b => [if b then 1 else 0] := by
    rw [List.map_eq_flatMap]
  unfold encode
  rw [hflags, List.append_assoc, List.append_assoc, decode, ← List.append_assoc,
    takeList_append row.values _ hvalues hvalue]
  dsimp only
  rw [takeList_append row.nulls _ (by omega) (fun b _ => takeFlag_append b)]
  dsimp only
  have hraw := takeList_stringBytes raw [] (by omega)
  rw [List.append_nil] at hraw
  rw [hraw]

end Intake.Frame
