import Intake.Proofs.Record.Ends
import Intake.Proofs.Record.OnePass
/-!
# Lines of NULL markers

A NULL marker can be used if a line made of markers, joined by the
delimiter, is read as that many fields that are all NULL
(`Dialect.ReadsMarkers`). The check of a dialect refuses a marker that
contains the delimiter or is contained in it, and that is not all there is
to it. What is needed is that the marker stands *apart* from a delimiter
behind it (`Dialect.Apart`): it leaves quotes and escapes behind, and no
delimiter begins in the marker and ends behind it.

`reads_markers_iff` says that this is exactly what is needed, whatever the
delimiter, the quote, the escape and the number of markers. The check
lets other markers pass: `overlap_misread` is one that ends as the
delimiter begins.
-/

namespace Intake

namespace Bytes

/-- Bytes that are among others occur in them. -/
theorem occursIn_append {needle : Bytes} (hne : needle ≠ []) (front back : Bytes) :
    occursIn needle (front ++ (needle ++ back)) = true := by
  induction front with
  | nil =>
    obtain ⟨b, bs, rfl⟩ := List.exists_cons_of_ne_nil hne
    simp [occursIn, startsWith]
  | cons b front ih => simp [occursIn, ih, hne]

end Bytes

namespace Dialect

/-- `n` NULL markers, joined by the delimiter. -/
def markers (d : Dialect) : Nat → Bytes
  | 0 => []
  | 1 => d.nullMarker
  | n + 2 => d.nullMarker ++ (d.delimiter ++ markers d (n + 1))

/-- However it is read, a line of `n` NULL markers that fits into the arena
is one record of `n` fields that are all NULL, where the marker is content
in no column. -/
def ReadsMarkers (d : Dialect) (n : Nat) : Prop :=
  ∀ (cuts : List Cut) (columns size limit k : Nat),
    (d.markers n).length + 1 < max 2 (max size limit) →
    ∃ fields : List Field,
      DelimitedReader.outcomes
          { source := { rest := d.markers n ++ [Csv.lineFeed], cuts := cuts }
            buffer := .ofSizes size limit, dialect := d
            forced := List.replicate columns false } k
        = [.ok (some ⟨1, d.markers n ++ [Csv.lineFeed], fields, none⟩), .ok none].take k ∧
      fields.length = n ∧ ∀ f ∈ fields, f.isNull = true

/-- Bytes that a delimiter behind them can be told from: the scan stands
outside quotes and behind no escape after them, and wherever it does so
before, no delimiter begins that ends in the one behind. -/
structure Apart (d : Dialect) (region : Region) (bs : Bytes) : Prop where
  ends_outside : d.regionAfter region bs = some .outside
  no_overlap : ∀ front back, bs = front ++ back → back ≠ [] →
    d.regionAfter region front = some .outside → ¬ d.delimiter <+: back ++ d.delimiter

/-- Whether bytes stand apart is a matter of finitely many places. -/
theorem apart_iff {d : Dialect} {region : Region} {bs : Bytes} :
    d.Apart region bs ↔ d.regionAfter region bs = some .outside ∧
      ∀ i < bs.length, d.regionAfter region (bs.take i) = some .outside →
        ¬ d.delimiter <+: bs.drop i ++ d.delimiter := by
  refine ⟨fun h => ⟨h.ends_outside, fun i hi => ?_⟩, fun h => ⟨h.1, ?_⟩⟩
  · refine h.no_overlap _ _ (List.take_append_drop i bs).symm ?_
    exact List.ne_nil_of_length_pos (by rw [List.length_drop]; omega)
  · rintro front back rfl hback hregion
    have hpos := List.length_pos_iff.mpr hback
    have hplace := h.2 front.length (by rw [List.length_append]; omega)
    rw [List.take_left, List.drop_left] at hplace
    exact hplace hregion

instance (d : Dialect) (region : Region) (bs : Bytes) : Decidable (d.Apart region bs) :=
  decidable_of_iff _ apart_iff.symm

/-! ## What the check says of the marker -/

section Check

variable {d : Dialect} (hd : d.check = .ok ())

include hd

theorem nullMarker_of_check :
    (∀ b ∈ d.nullMarker, b ≠ Csv.lineFeed ∧ b ≠ Csv.carriageReturn) ∧
      Bytes.occursIn d.delimiter d.nullMarker = false := by
  have hchecked := checked_of_check hd
  exact ⟨fun b hb => isLineEnd_eq_false (hchecked.marker_end b hb), hchecked.marker_apart⟩

/-- The delimiter is not among the bytes of the marker. -/
theorem nullMarker_ne (front back : Bytes) : d.nullMarker ≠ front ++ (d.delimiter ++ back) := by
  intro heq
  have hoccurs := (nullMarker_of_check hd).2
  rw [heq, Bytes.occursIn_append (usable_of_check hd).some_delimiter] at hoccurs
  cases hoccurs

/-- There is no line end in a line of markers but the one behind it. -/
theorem ne_lineEnd_of_mem_markers {n : Nat} {b : UInt8} (hb : b ∈ d.markers n) :
    b ≠ Csv.lineFeed ∧ b ≠ Csv.carriageReturn := by
  induction n using markers.induct with
  | case1 => cases hb
  | case2 => exact (nullMarker_of_check hd).1 b hb
  | case3 n ih =>
    rw [markers, List.mem_append, List.mem_append] at hb
    rcases hb with hb | hb | hb
    · exact (nullMarker_of_check hd).1 b hb
    · exact (usable_of_check hd).delimiter_end b hb
    · exact ih hb

theorem stripEnd_markers (n : Nat) : stripEnd (d.markers n ++ [Csv.lineFeed]) = d.markers n := by
  refine stripEnd_lineFeed fun hlast => ?_
  exact (ne_lineEnd_of_mem_markers hd (List.mem_of_getLast? hlast)).2 rfl

end Check

/-! ## The marks of bytes that stand apart -/

section Apart

variable {d : Dialect} {quoted : Bool} {m : Mark} {rest bs : Bytes}

theorem regionAfter_cons {region next : Region} {b : UInt8} (h : region.next d b = some next)
    (bs : Bytes) : d.regionAfter region (b :: bs) = d.regionAfter next bs := by
  rw [regionAfter, h]
  rfl

/-- Bytes without a line feed do not end a record. -/
theorem exists_regionAfter {region : Region} (h : ∀ b ∈ bs, b ≠ Csv.lineFeed) :
    ∃ r, d.regionAfter region bs = some r := by
  induction bs generalizing region with
  | nil => exact ⟨region, rfl⟩
  | cons b bs ih =>
    cases hnext : region.next d b with
    | none => exact absurd (next_eq_none hnext).2 (h b List.mem_cons_self)
    | some next =>
      rw [regionAfter_cons hnext]
      exact ih fun c hc => h c (List.mem_cons_of_mem _ hc)

/-- The scan, led over a mark and bytes behind it, is outside exactly where
it is so from the region that the mark turns to. In between it may stand
behind an escape that escapes nothing. -/
theorem Front.regionAfter_read (h : d.Front quoted m rest bs) (hd : d.Usable)
    (hends : d.regionAfter (regionOf quoted) bs = some .outside) {front : Bytes}
    (hfront : front <+: rest) :
    d.regionAfter (regionOf quoted) (m.read ++ front) = some .outside
      ↔ d.regionAfter (regionOf (m.turn quoted)) front = some .outside := by
  cases h with
  | @escaped b c rest isEscape literal =>
    show d.regionAfter .quoted (b :: c :: front) = _ ↔ d.regionAfter .quoted front = _
    rw [regionAfter_cons (next_quotedEscape isEscape),
      regionAfter_cons (next_behind_quotedEscape c)]
  | @doubled b rest isQuote alone =>
    show d.regionAfter .quoted (b :: b :: front) = _ ↔ d.regionAfter .quoted front = _
    rw [regionAfter_cons (next_closing isQuote), regionAfter_cons (next_opening hd isQuote)]
  | @closing b rest isQuote single =>
    show d.regionAfter .quoted (b :: front) = _ ↔ d.regionAfter .outside front = _
    rw [regionAfter_cons (next_closing isQuote)]
  | @quoted b rest noQuote noEscape =>
    show d.regionAfter .quoted (b :: front) = _ ↔ d.regionAfter .quoted front = _
    by_cases he : some b = d.quotedEscape
    · rw [regionAfter_cons (next_quotedEscape he)]
      cases front with
      | nil => exact iff_of_false nofun nofun
      | cons c front =>
        obtain ⟨tail, rfl⟩ := hfront
        obtain ⟨hcq, hce⟩ := noEscape he c rfl
        rw [regionAfter_cons (next_behind_quotedEscape c), regionAfter_cons (next_quoted hcq hce)]
    · rw [regionAfter_cons (next_quoted noQuote he)]
  | divider some_delimiter =>
    show d.regionAfter .outside (d.delimiter ++ front) = _ ↔ d.regionAfter .outside front = _
    rw [regionAfter_append, (scanRoles_outside fun b hb => next_delimiter hd hb).1]
    rfl
  | @opening b rest noDivider isQuote =>
    show d.regionAfter .outside (b :: front) = _ ↔ d.regionAfter .quoted front = _
    rw [regionAfter_cons (next_opening hd isQuote)]
  | @pair b c rest noDivider noQuote isEscape =>
    have hb : b ≠ Csv.lineFeed := (hd.escape_end b (escape_of_plainEscape isEscape)).1
    show d.regionAfter .outside (b :: c :: front) = _ ↔ d.regionAfter .outside front = _
    rw [regionAfter_cons (next_escaped hb noQuote isEscape),
      regionAfter_cons (next_behind_escaped c)]
  | @plain b rest noDivider noQuote noEscape =>
    have hb : b ≠ Csv.lineFeed := by
      rintro rfl
      rw [regionOf, if_neg nofun, regionAfter, next_lineFeed] at hends
      cases hends
    have he : some b ≠ d.plainEscape := by
      intro he
      obtain rfl := noEscape he
      rw [regionOf, if_neg nofun, regionAfter_cons (next_escaped hb noQuote he)] at hends
      cases hends
    show d.regionAfter .outside (b :: front) = _ ↔ d.regionAfter .outside front = _
    rw [regionAfter_cons (next_outside hb noQuote he)]

/-- What a mark leaves of bytes that stand apart stands apart. -/
theorem Front.apart (h : d.Front quoted m rest bs) (hd : d.Usable)
    (ha : d.Apart (regionOf quoted) bs) : d.Apart (regionOf (m.turn quoted)) rest where
  ends_outside := by
    refine (h.regionAfter_read hd ha.ends_outside (List.prefix_refl rest)).mp ?_
    rw [h.read_append]
    exact ha.ends_outside
  no_overlap front back hrest hback hregion := by
    refine ha.no_overlap (m.read ++ front) back ?_ hback
      ((h.regionAfter_read hd ha.ends_outside ⟨back, hrest.symm⟩).mpr hregion)
    rw [List.append_assoc, ← hrest, h.read_append]

/-- A mark of bytes that stand apart is the same with a delimiter behind
them. -/
theorem Front.append_delimiter (h : d.Front quoted m rest bs) (hd : d.Usable)
    (ha : d.Apart (regionOf quoted) bs) (tail : Bytes) :
    d.Front quoted m (rest ++ (d.delimiter ++ tail)) (bs ++ (d.delimiter ++ tail)) := by
  have hno : quoted = false → bs ≠ [] → d.delimiter ≠ [] →
      ¬ d.delimiter <+: bs ++ (d.delimiter ++ tail) := by
    rintro rfl hne - hlead
    refine ha.no_overlap [] bs rfl hne rfl ?_
    rw [← List.append_assoc] at hlead
    exact List.prefix_of_prefix_length_le hlead (List.prefix_append _ _) (by simp)
  cases h with
  | escaped isEscape literal => exact .escaped isEscape literal
  | doubled isQuote alone => exact .doubled isQuote alone
  | @closing b rest isQuote single =>
    refine .closing isQuote fun hn => ?_
    cases rest with
    | nil =>
      obtain ⟨x, xs, hx⟩ := List.exists_cons_of_ne_nil hd.some_delimiter
      rw [List.nil_append, hx]
      intro hhead
      refine hd.delimiter_quote b ?_ isQuote
      rw [hx, ← Option.some.inj hhead]
      exact List.mem_cons_self
    | cons c rest => exact single hn
  | @quoted b rest noQuote noEscape =>
    refine .quoted noQuote fun he => ?_
    cases rest with
    | nil =>
      have hends := ha.ends_outside
      rw [regionOf, if_pos rfl, regionAfter_cons (next_quotedEscape he)] at hends
      cases hends
    | cons c rest => exact noEscape he
  | divider some_delimiter =>
    rw [List.append_assoc]
    exact .divider some_delimiter
  | opening noDivider isQuote => exact .opening (hno rfl (List.cons_ne_nil _ _)) isQuote
  | pair noDivider noQuote isEscape =>
    exact .pair (hno rfl (List.cons_ne_nil _ _)) noQuote isEscape
  | @plain b rest noDivider noQuote noEscape =>
    refine .plain (hno rfl (List.cons_ne_nil _ _)) noQuote fun he => ?_
    obtain rfl := noEscape he
    have hends := ha.ends_outside
    have hb : b ≠ Csv.lineFeed := (hd.escape_end b (escape_of_plainEscape he)).1
    rw [regionOf, if_neg nofun, regionAfter_cons (next_escaped hb noQuote he)] at hends
    cases hends

/-- **A delimiter behind bytes that stand apart is a divider.** -/
theorem splitMarks_append_delimiter (quoted : Bool) (hd : d.Usable)
    (ha : d.Apart (regionOf quoted) bs) (tail : Bytes) :
    d.splitMarks quoted (bs ++ (d.delimiter ++ tail))
      = d.splitMarks quoted bs ++ .divider d.delimiter :: d.splitMarks false tail := by
  induction quoted, bs using markwise (d := d) with
  | nil quoted =>
    cases quoted with
    | true => cases ha.ends_outside
    | false =>
      rw [List.nil_append, splitMarks_nil, List.nil_append,
        (Front.divider hd.some_delimiter).splitMarks_eq]
      rfl
  | mark quoted m rest bs hfront ih =>
    rw [(hfront.append_delimiter hd ha tail).splitMarks_eq, hfront.splitMarks_eq,
      ih (hfront.apart hd ha), List.cons_append]

/-- The marks of some bytes were read from them. -/
theorem read_splitMarks (d : Dialect) (quoted : Bool) (bs : Bytes) :
    (d.splitMarks quoted bs).flatMap Mark.read = bs := by
  induction quoted, bs using markwise (d := d) with
  | nil quoted => simp
  | mark quoted m rest bs hfront ih =>
    rw [hfront.splitMarks_eq, List.flatMap_cons, ih, hfront.read_append]

/-- A divider is read from a delimiter. -/
theorem exists_of_isDivider (hmem : m ∈ d.splitMarks quoted bs) (hm : m.isDivider = true) :
    ∃ front back, bs = front ++ (d.delimiter ++ back) := by
  induction quoted, bs using markwise (d := d) with
  | nil quoted => simp at hmem
  | mark quoted m' rest bs hfront ih =>
    rw [hfront.splitMarks_eq, List.mem_cons] at hmem
    rcases hmem with rfl | hmem
    · cases hfront with
      | divider some_delimiter => exact ⟨[], rest, rfl⟩
      | _ => cases hm
    · obtain ⟨front, back, rfl⟩ := ih hmem
      exact ⟨m'.read ++ front, back, by rw [List.append_assoc, hfront.read_append]⟩

end Apart

/-! ## Lines of markers -/

section Lines

variable {d : Dialect} (hd : d.check = .ok ())

include hd

theorem isDivider_eq_false {front back : Bytes} (hmarker : d.nullMarker = front ++ back) {m : Mark}
    (hm : m ∈ d.splitMarks false front) : m.isDivider = false := by
  by_contra hdivider
  obtain ⟨x, y, hxy⟩ := exists_of_isDivider hm (by simpa using hdivider)
  refine nullMarker_ne hd x (y ++ back) ?_
  rw [hmarker, hxy, List.append_assoc, List.append_assoc]

/-- The first bytes of the marker, before a delimiter, are the first field,
and it is NULL only if they are all of the marker. -/
theorem fieldsOf_append_delimiter {front back : Bytes} (hmarker : d.nullMarker = front ++ back)
    (ha : d.Apart .outside front) (forced : List Bool) (tail : Bytes) :
    d.fieldsOf forced (d.splitMarks false (front ++ (d.delimiter ++ tail)))
      = { bytes := (d.splitMarks false front).filterMap Mark.stands?
          isNull := !(forced.headD false) && front == d.nullMarker }
        :: d.fieldsOf forced.tail (d.splitMarks false tail) := by
  rw [splitMarks_append_delimiter false (usable_of_check hd) ha,
    fieldsOf_divider fun m hm => isDivider_eq_false hd hmarker hm, fieldOf, read_splitMarks]

/-- Markers that stand apart are NULL, one and all. -/
theorem fieldsOf_markers (ha : d.Apart .outside d.nullMarker) (columns n : Nat) :
    let fields := d.fieldsOf (List.replicate columns false) (d.splitMarks false (d.markers (n + 1)))
    fields.length = n + 1 ∧ ∀ f ∈ fields, f.isNull = true := by
  have hmarker : d.nullMarker = d.nullMarker ++ [] := (List.append_nil _).symm
  have hforced : ∀ columns, (List.replicate columns false).headD false = false := by
    intro columns
    cases columns <;> rfl
  induction n generalizing columns with
  | zero =>
    rw [markers, fieldsOf_span fun m hm => isDivider_eq_false hd hmarker hm, hforced]
    refine ⟨rfl, fun f hf => ?_⟩
    obtain rfl := List.mem_singleton.mp hf
    simp [fieldOf, read_splitMarks]
  | succ n ih =>
    obtain ⟨hlen, hnull⟩ := ih (columns - 1)
    rw [markers, fieldsOf_append_delimiter hd hmarker ha, hforced, List.tail_replicate]
    refine ⟨congrArg (· + 1) hlen, fun f hf => ?_⟩
    rcases List.mem_cons.mp hf with rfl | hf
    · simp
    · exact hnull f hf

/-- Where the marker leaves quotes and escapes behind, a line of markers is
one record. -/
theorem outcomes_markers (hends : d.regionAfter .outside d.nullMarker = some .outside) {n : Nat}
    (cuts : List Cut) (columns size limit k : Nat)
    (hfits : (d.markers n).length + 1 < max 2 (max size limit)) :
    DelimitedReader.outcomes
        { source := { rest := d.markers n ++ [Csv.lineFeed], cuts := cuts }
          buffer := .ofSizes size limit, dialect := d, forced := List.replicate columns false } k
      = [.ok (some ⟨1, d.markers n ++ [Csv.lineFeed],
          d.fieldsOf (List.replicate columns false) (d.splitMarks false (d.markers n)), none⟩),
        .ok none].take k := by
  have hregion : d.regionAfter .outside (d.markers n) = some .outside := by
    clear hfits
    induction n using markers.induct with
    | case1 => rfl
    | case2 => exact hends
    | case3 n ih =>
      rw [markers, regionAfter_append, hends, Option.bind_some, regionAfter_append,
        (scanRoles_outside fun b hb => next_delimiter (usable_of_check hd) hb).1]
      exact ih
  have hclosed : d.Closed (d.markers n ++ [Csv.lineFeed]) := ⟨_, rfl, hregion⟩
  have hdivide : d.divide (d.markers n ++ [Csv.lineFeed])
      = ⟨[d.markers n ++ [Csv.lineFeed]], [], .outside⟩ := by
    have h := divide_flatten (d := d) (List.forall_mem_singleton.mpr hclosed)
    rwa [List.flatten_singleton] at h
  have hlen : (d.markers n ++ [Csv.lineFeed]).length < max 2 (max size limit) := by
    rwa [List.length_append]
  rw [DelimitedReader.outcomes_start _ cuts d _ size limit k, hdivide,
    Division.outcomes_cons _ _ _ _ hlen, Division.outcomes_nil, Division.record,
    stripEnd_markers hd, split_eq_fieldsOf (usable_of_check hd).some_delimiter]

/-! ## What is needed of a marker -/

/-- Markers that are read as NULL leave quotes and escapes behind. -/
theorem ends_outside_of_reads (h : d.ReadsMarkers 1) :
    d.regionAfter .outside d.nullMarker = some .outside := by
  obtain ⟨r, hr⟩ : ∃ r, d.regionAfter .outside d.nullMarker = some r :=
    exists_regionAfter fun b hb => ((nullMarker_of_check hd).1 b hb).1
  have hne : d.nullMarker ++ [Csv.lineFeed] ≠ [] := by simp
  have hfits : (d.nullMarker ++ [Csv.lineFeed]).length + 1
      < max 2 (max 0 (d.nullMarker.length + 3)) := by
    rw [List.length_append, List.length_singleton]
    omega
  obtain ⟨fields, hout, -⟩ := h [] 0 0 (d.nullMarker.length + 3) 1 (by rw [markers]; omega)
  rw [DelimitedReader.outcomes_start _ [] d _ 0 _ 1, markers] at hout
  -- within quotes or behind an escape the line feed does not end the record
  have hdivide : ∀ next, r.next d Csv.lineFeed = some next →
      d.divide (d.nullMarker ++ [Csv.lineFeed])
        = ⟨[], d.nullMarker ++ [Csv.lineFeed], next⟩ := by
    intro next hnext
    rw [divide, divideFrom_append hr, divideFrom_next d hnext]
    rfl
  cases r with
  | outside => exact hr
  | escaped =>
    rw [hdivide .outside rfl, Division.outcomes_tail _ _ _ _ hne hfits rfl] at hout
    have hrecord := Record.mk.inj (Option.some.inj (Except.ok.inj (List.cons.inj hout).1))
    have hraw := List.append_right_eq_self.mp hrecord.2.1
    cases hraw
  | quotedEscape =>
    rw [hdivide .quoted rfl, Division.outcomes_tail_quoted _ _ _ _ hne hfits rfl] at hout
    cases (List.cons.inj hout).1
  | quoted =>
    have hquote : some Csv.lineFeed ≠ d.quote := fun hq =>
      ((usable_of_check hd).quote_end _ hq).1 rfl
    obtain ⟨next, hnext, hquoted⟩ : ∃ next, Region.next d .quoted Csv.lineFeed = some next ∧
        next.isQuoted = true := by
      by_cases he : some Csv.lineFeed = d.quotedEscape
      · exact ⟨_, next_quotedEscape he, rfl⟩
      · exact ⟨_, next_quoted hquote he, rfl⟩
    rw [hdivide next hnext, Division.outcomes_tail_quoted _ _ _ _ hne hfits hquoted] at hout
    cases (List.cons.inj hout).1

/-- Markers that are read as NULL do not overlap a delimiter behind them.

The induction finds the first place at which one would begin: the bytes of
the marker before that place would be a field of their own. -/
theorem not_overlap_of_reads (h : d.ReadsMarkers 2)
    (hends : d.regionAfter .outside d.nullMarker = some .outside) {front back : Bytes}
    (hmarker : d.nullMarker = front ++ back) (hback : back ≠ [])
    (hregion : d.regionAfter .outside front = some .outside) :
    ¬ d.delimiter <+: back ++ d.delimiter := by
  induction hk : front.length using Nat.strongRecOn generalizing front back with
  | ind k ih =>
    rintro ⟨x, hx⟩
    have ha : d.Apart .outside front := by
      refine ⟨hregion, fun front' back' hfront hback' hregion' => ?_⟩
      rintro ⟨y, hy⟩
      subst hfront
      have hless : front'.length < k := by
        have hpos := List.length_pos_iff.mpr hback'
        rw [List.length_append] at hk
        omega
      refine ih _ hless (?_ : d.nullMarker = front' ++ (back' ++ back)) ?_ hregion' rfl
        ⟨y ++ x, ?_⟩
      · rw [hmarker, List.append_assoc]
      · simp [hback']
      · rw [List.append_assoc back', ← hx, ← List.append_assoc, ← List.append_assoc, hy]
    have hline : d.markers 2 = front ++ (d.delimiter ++ (x ++ d.nullMarker)) :=
      calc d.nullMarker ++ (d.delimiter ++ d.nullMarker)
        _ = front ++ back ++ (d.delimiter ++ d.nullMarker) := by rw [← hmarker]
        _ = front ++ (back ++ d.delimiter ++ d.nullMarker) := by simp only [List.append_assoc]
        _ = front ++ (d.delimiter ++ (x ++ d.nullMarker)) := by rw [← hx, List.append_assoc]
    obtain ⟨fields, hout, -, hnull⟩ :=
      h [] 0 0 ((d.markers 2).length + 2) 1 (by omega)
    rw [outcomes_markers hd hends [] 0 0 _ 1 (by omega), hline,
      fieldsOf_append_delimiter hd hmarker ha] at hout
    have hfields := (Record.mk.inj (Option.some.inj (Except.ok.inj (List.cons.inj hout).1))).2.2.1
    have hfirst := hnull _ (hfields ▸ List.mem_cons_self)
    have heq : front = d.nullMarker := by simpa using hfirst
    exact hback (List.append_right_eq_self.mp (hmarker.symm.trans heq.symm))

/-- **Lines of NULL markers are read as fields that are all NULL exactly if
the marker stands apart from a delimiter behind it.** -/
theorem reads_markers_iff :
    (∀ n, 0 < n → d.ReadsMarkers n) ↔ d.Apart .outside d.nullMarker := by
  constructor
  · intro h
    have hends := ends_outside_of_reads hd (h 1 Nat.one_pos)
    exact ⟨hends, fun front back hmarker hback hregion =>
      not_overlap_of_reads hd (h 2 Nat.two_pos) hends hmarker hback hregion⟩
  · intro ha n hn cuts columns size limit k hfits
    obtain ⟨n, rfl⟩ := Nat.exists_eq_add_of_lt hn
    rw [Nat.zero_add] at hfits ⊢
    obtain ⟨hlen, hnull⟩ := fieldsOf_markers hd ha columns n
    exact ⟨_, outcomes_markers hd ha.ends_outside cuts columns size limit k hfits, hlen, hnull⟩

end Lines

/-- The marker of text stands apart, with the escape that it begins with. -/
theorem reads_markers_text :
    Dialect.text.check = .ok () ∧ ∀ n, 0 < n → Dialect.text.ReadsMarkers n :=
  ⟨rfl, (reads_markers_iff rfl).mpr (by decide)⟩

/-- Commas and nothing between them. -/
example : Dialect.csv.check = .ok () ∧ Dialect.csv.Apart .outside Dialect.csv.nullMarker := by
  decide

/-- A quote is accepted for a marker, and an escape is. -/
example :
    let quote : Dialect := { Dialect.csv with nullMarker := [0x22] }
    let escape : Dialect := { Dialect.text with nullMarker := [0x5C] }
    (quote.check = .ok () ∧ ¬ quote.Apart .outside quote.nullMarker) ∧
      escape.check = .ok () ∧ ¬ escape.Apart .outside escape.nullMarker := by
  decide

/-- Two bars between fields and a marker that ends with one: the first two
bars of the line are taken for the delimiter. -/
theorem overlap_misread :
    let d : Dialect :=
      { Dialect.csv with delimiter := Bytes.ascii "||", nullMarker := Bytes.ascii "x|" }
    d.check = .ok () ∧ d.forceNotNull = [] ∧
      DelimitedReader.outcomes
          { source := { rest := d.markers 2 ++ [Csv.lineFeed], cuts := [] }
            buffer := .ofSizes 4 64, dialect := d, forced := [false, false] } 2
        = [.ok (some ⟨1, Bytes.ascii "x|||x|\n",
            [⟨Bytes.ascii "x", false⟩, ⟨Bytes.ascii "|x|", false⟩], none⟩), .ok none] ∧
      ¬ d.ReadsMarkers 2 := by
  intro d
  have hout : DelimitedReader.outcomes
      { source := { rest := d.markers 2 ++ [Csv.lineFeed], cuts := [] }
        buffer := .ofSizes 4 64, dialect := d, forced := [false, false] } 2
      = [.ok (some ⟨1, Bytes.ascii "x|||x|\n",
          [⟨Bytes.ascii "x", false⟩, ⟨Bytes.ascii "|x|", false⟩], none⟩), .ok none] := by
    decide +kernel
  refine ⟨by decide, rfl, hout, fun h => ?_⟩
  obtain ⟨fields, hnull, -, hall⟩ := h [] 2 4 64 2 (by decide)
  have hrecord := Record.mk.inj
    (Option.some.inj (Except.ok.inj (List.cons.inj (hout.symm.trans hnull)).1))
  have hfirst := hall _ (hrecord.2.2.1 ▸ List.mem_cons_self)
  cases hfirst

end Dialect
end Intake
