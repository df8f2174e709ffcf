import Intake.Proofs.Record.Marks
import Intake.Proofs.Record.Reading
/-!
# Escapes outside quotes

Where a dialect has no quotes, an escape makes the next byte literal. The
end of a record is looked for with that in mind, and so is the end of a
field, but by two automata, and between the two a carriage return is
stripped from the end of the record by something that knows nothing of
escapes.

`Dialect.scanRoles` says of each byte what the first automaton takes it
for, and the marks of the record say what the second one does. They agree
on every byte of every record, except that a record may end with an
escaped carriage return (`escapes_agree_iff`): that byte is stripped, and
the escape before it is left over as content (`escaped_return_lost`).
-/

namespace Intake

/-- What a byte of a record without quotes is taken for. -/
inductive Role where
  /-- Itself, or part of what divides fields or ends the record. -/
  | plain
  /-- What makes the next byte literal. -/
  | escape
  /-- A byte that is made literal. -/
  | escaped
  deriving DecidableEq, Repr

namespace Dialect

/-- What the scan takes each byte of a record for. An escape that no byte
follows is a byte like others. -/
def scanRoles (d : Dialect) (region : Region) : Bytes → List Role
  | [] => []
  | b :: bs =>
    match region.next d b with
    | none => [.plain]
    | some next =>
      (if region = .escaped then .escaped
        else if next = .escaped ∧ bs ≠ [] then .escape
        else .plain) :: scanRoles d next bs

/-- What the splitter takes the bytes of a mark for. -/
def Mark.roles : Mark → List Role
  | .content [_, _] _ => [.escape, .escaped]
  | m => m.read.map fun _ => .plain

/-- What the splitter takes the bytes of a record for, with those that are
stripped from its end. -/
def splitRoles (d : Dialect) (raw : Bytes) : List Role :=
  (d.splitMarks false (stripEnd raw)).flatMap Mark.roles
    ++ (raw.drop (stripEnd raw).length).map fun _ => .plain

/-- A record that ends with an escaped carriage return: it is stripped,
and the escape is left over. -/
structure Loses (d : Dialect) (front : Bytes) (e : UInt8) (raw : Bytes) : Prop where
  raw_eq : raw = front ++ [e, Csv.carriageReturn, Csv.lineFeed]
  stripEnd_eq : stripEnd raw = front ++ [e]
  splitMarks_eq : d.splitMarks false (stripEnd raw) = d.splitMarks false front ++ [.content [e] e]
  scanRoles_eq : d.scanRoles .outside (front ++ [e, Csv.carriageReturn])
    = (d.splitMarks false front).flatMap Mark.roles ++ [.escape, .escaped]

/-- Where the scan stands after some bytes of a record, none of which end
it. -/
def regionAfter (d : Dialect) (region : Region) : Bytes → Option Region
  | [] => some region
  | b :: bs => (region.next d b).bind fun next => regionAfter d next bs

/-- A record ends with a carriage return that an escape stands before. -/
def EndsEscaped (d : Dialect) (raw : Bytes) : Prop :=
  ∃ front, raw = front ++ [Csv.carriageReturn, Csv.lineFeed] ∧
    scan d 0 .outside front = .unfinished front.length .escaped

section Region

variable {d : Dialect} {region next r : Region} {xs ys : Bytes}

theorem regionAfter_append (region : Region) (xs ys : Bytes) :
    d.regionAfter region (xs ++ ys) = (d.regionAfter region xs).bind (d.regionAfter · ys) := by
  induction xs generalizing region with
  | nil => rfl
  | cons b xs ih =>
    rw [List.cons_append, regionAfter, regionAfter]
    cases region.next d b with
    | none => rfl
    | some next => exact ih next

/-- The scan stands where it has found no end. -/
theorem scan_eq_unfinished_iff (size : Nat) :
    scan d size region xs = .unfinished (size + xs.length) r
      ↔ d.regionAfter region xs = some r := by
  induction xs generalizing size region with
  | nil => simp [scan, regionAfter]
  | cons b xs ih =>
    have hlength : size + (b :: xs).length = size + 1 + xs.length := by
      rw [List.length_cons]
      omega
    rw [scan, regionAfter, hlength]
    cases hnext : region.next d b with
    | none => simp
    | some next => exact ih (size + 1)

/-- Only a line feed outside quotes ends a record. -/
theorem next_eq_none {b : UInt8} (h : region.next d b = none) :
    region = .outside ∧ b = Csv.lineFeed := by
  cases region with
  | outside =>
    simp only [Region.next] at h
    split at h
    · next hb => exact ⟨rfl, hb⟩
    · split at h
      · cases h
      · split at h <;> cases h
  | quoted =>
    simp only [Region.next] at h
    split at h
    · cases h
    · split at h <;> cases h
  | quotedEscape => cases h
  | escaped => cases h

/-- The parts of a division, by where the scan stands in them. -/
theorem regionAfter_divideFrom {seen : Bytes} (h : d.regionAfter .outside seen = some region)
    (bs : Bytes) :
    (∀ part ∈ (d.divideFrom region seen bs).closed, ∃ body,
        part = body ++ [Csv.lineFeed] ∧ d.regionAfter .outside body = some .outside) ∧
      d.regionAfter .outside (d.divideFrom region seen bs).tail
        = some (d.divideFrom region seen bs).region := by
  induction bs generalizing region seen with
  | nil => exact ⟨fun part hpart => absurd hpart List.not_mem_nil, h⟩
  | cons b bs ih =>
    cases hnext : region.next d b with
    | none =>
      obtain ⟨rfl, rfl⟩ := next_eq_none hnext
      obtain ⟨hclosed, htail⟩ := @ih .outside [] rfl
      rw [divideFrom_end d hnext]
      refine ⟨fun part hpart => ?_, htail⟩
      rcases List.mem_cons.mp hpart with rfl | hpart
      · exact ⟨seen, rfl, h⟩
      · exact hclosed part hpart
    | some next =>
      rw [divideFrom_next d hnext]
      refine ih ?_
      rw [regionAfter_append, h]
      show (region.next d b).bind _ = _
      rw [hnext]
      rfl

theorem scanRoles_next {b : UInt8} (h : region.next d b = some next) (bs : Bytes) :
    d.scanRoles region (b :: bs)
      = (if region = .escaped then .escaped
          else if next = .escaped ∧ bs ≠ [] then .escape
          else .plain) :: d.scanRoles next bs := by
  rw [scanRoles, h]

theorem length_scanRoles (h : d.regionAfter region xs = some r) :
    (d.scanRoles region xs).length = xs.length := by
  induction xs generalizing region with
  | nil => rfl
  | cons b xs ih =>
    obtain ⟨next, hnext, hrest⟩ := Option.bind_eq_some_iff.mp h
    rw [scanRoles_next hnext, List.length_cons, List.length_cons, ih hrest]

/-- An escape and the byte that it makes literal. -/
theorem scanRoles_pair {e : UInt8} (h : Region.next d .outside e = some .escaped) (c : UInt8)
    (bs : Bytes) :
    d.scanRoles .outside (e :: c :: bs) = [.escape, .escaped] ++ d.scanRoles .outside bs := by
  rw [scanRoles_next h, scanRoles_next (next_behind_escaped c)]
  simp

/-- What the scan takes bytes for does not depend on those before them,
unless it stands behind an escape that they begin after. -/
theorem scanRoles_append (h : d.regionAfter region xs = some r) (hr : r ≠ .escaped) (ys : Bytes) :
    d.scanRoles region (xs ++ ys) = d.scanRoles region xs ++ d.scanRoles r ys := by
  induction xs generalizing region with
  | nil =>
    cases h
    rfl
  | cons b xs ih =>
    obtain ⟨next, hnext, hrest⟩ := Option.bind_eq_some_iff.mp h
    have hlast : (next = .escaped ∧ xs ++ ys ≠ []) ↔ (next = .escaped ∧ xs ≠ []) := by
      refine and_congr_right fun he => ?_
      refine iff_of_true ?_ ?_
      · rintro hnil
        obtain ⟨rfl, -⟩ := List.append_eq_nil_iff.mp hnil
        exact hr ((Option.some.inj hrest).symm.trans he)
      · rintro rfl
        exact hr ((Option.some.inj hrest).symm.trans he)
    rw [List.cons_append, scanRoles_next hnext, scanRoles_next hnext, ih hrest, List.cons_append]
    simp only [hlast]

/-- Bytes that the scan passes over outside quotes. -/
theorem scanRoles_outside (h : ∀ b ∈ xs, Region.next d .outside b = some .outside) :
    d.regionAfter .outside xs = some .outside ∧
      d.scanRoles .outside xs = xs.map fun _ => .plain := by
  induction xs with
  | nil => exact ⟨rfl, rfl⟩
  | cons b xs ih =>
    obtain ⟨hregion, hroles⟩ := ih fun c hc => h c (List.mem_cons_of_mem _ hc)
    have hb := h b List.mem_cons_self
    constructor
    · rw [regionAfter, hb]
      exact hregion
    · rw [scanRoles_next hb, hroles]
      rfl

/-- A mark is the same with an escape behind the bytes. -/
theorem Front.concat_escape (hd : d.Usable) {m : Mark} {rest xs : Bytes} {e : UInt8}
    (he : some e = d.plainEscape) (hfront : d.Front false m rest xs)
    (hrest : d.regionAfter .outside xs = some .outside) :
    d.Front false m (rest ++ [e]) (xs ++ [e]) := by
  have hno : ∀ {bs : Bytes}, (d.delimiter ≠ [] → ¬ d.delimiter <+: bs) →
      d.delimiter ≠ [] → ¬ d.delimiter <+: bs ++ [e] := by
    intro bs hno hsome hlead
    rw [List.prefix_concat_iff] at hlead
    rcases hlead with heq | hlead
    · refine hd.delimiter_escape e ?_ (escape_of_plainEscape he)
      rw [heq]
      exact List.mem_concat_self
    · exact hno hsome hlead
  cases hfront with
  | divider some_delimiter =>
    rw [List.append_assoc]
    exact .divider some_delimiter
  | opening noDivider isQuote => exact .opening (hno noDivider) isQuote
  | pair noDivider noQuote isEscape => exact .pair (hno noDivider) noQuote isEscape
  | @plain b rest noDivider noQuote noEscape =>
    refine .plain (hno noDivider) noQuote fun hb => ?_
    obtain rfl := noEscape hb
    have hend : b ≠ Csv.lineFeed := (hd.escape_end b (escape_of_plainEscape hb)).1
    rw [regionAfter, next_escaped hend noQuote hb] at hrest
    cases hrest

theorem Loses.splitRoles_eq {front raw : Bytes} {e : UInt8} (h : d.Loses front e raw) :
    d.splitRoles raw
      = (d.splitMarks false front).flatMap Mark.roles ++ [.plain, .plain, .plain] := by
  have hdrop : raw.drop (stripEnd raw).length = [Csv.carriageReturn, Csv.lineFeed] := by
    rw [h.stripEnd_eq, h.raw_eq]
    simp
  rw [splitRoles, h.splitMarks_eq, hdrop, List.flatMap_append, List.append_assoc]
  rfl

theorem endsEscaped_iff {body : Bytes} :
    d.EndsEscaped (body ++ [Csv.lineFeed]) ↔
      ∃ front, body = front ++ [Csv.carriageReturn] ∧
        d.regionAfter .outside front = some .escaped := by
  refine exists_congr fun front => and_congr ?_ ?_
  · rw [List.append_cons front, List.append_left_inj]
  · have h : scan d 0 .outside front = .unfinished (0 + front.length) .escaped
        ↔ d.regionAfter .outside front = some .escaped := scan_eq_unfinished_iff 0
    rwa [Nat.zero_add] at h

end Region

section Quoteless

variable {d : Dialect} (hquote : d.quote = none)

include hquote

theorem next_outside_quoteless {b : UInt8} {next : Region}
    (h : Region.next d .outside b = some next) :
    b ≠ Csv.lineFeed ∧
      (some b = d.plainEscape ∧ next = .escaped ∨ some b ≠ d.plainEscape ∧ next = .outside) := by
  simp only [Region.next, hquote] at h
  split at h
  · cases h
  next hb =>
  refine ⟨hb, ?_⟩
  split at h
  · next hq => cases hq
  · split at h
    · next he => exact .inl ⟨he, (Option.some.inj h).symm⟩
    · next he => exact .inr ⟨he, (Option.some.inj h).symm⟩

/-- Without quotes the scan stands outside or behind an escape. -/
theorem regionAfter_quoteless {region r : Region} {xs : Bytes}
    (hregion : region = .outside ∨ region = .escaped) (h : d.regionAfter region xs = some r) :
    r = .outside ∨ r = .escaped := by
  induction xs generalizing region with
  | nil => exact Option.some.inj h ▸ hregion
  | cons b xs ih =>
    obtain ⟨next, hnext, hrest⟩ := Option.bind_eq_some_iff.mp h
    refine ih ?_ hrest
    rcases hregion with rfl | rfl
    · rcases (next_outside_quoteless hquote hnext).2 with ⟨-, rfl⟩ | ⟨-, rfl⟩
      · exact .inr rfl
      · exact .inl rfl
    · exact .inl (Option.some.inj hnext).symm

/-- The scan stands behind an escape only where one is the last byte. -/
theorem exists_of_regionAfter_escaped {xs : Bytes}
    (h : d.regionAfter .outside xs = some .escaped) :
    ∃ front e, xs = front ++ [e] ∧ some e = d.plainEscape ∧
      d.regionAfter .outside front = some .outside := by
  rcases List.eq_nil_or_concat xs with rfl | ⟨front, e, rfl⟩
  · cases h
  · rw [List.concat_eq_append, regionAfter_append] at h
    obtain ⟨region, hfront, hlast⟩ := Option.bind_eq_some_iff.mp h
    obtain ⟨next, hnext, hnext'⟩ := Option.bind_eq_some_iff.mp hlast
    obtain rfl : next = .escaped := Option.some.inj hnext'
    rcases regionAfter_quoteless hquote (.inl rfl) hfront with rfl | rfl
    · rcases (next_outside_quoteless hquote hnext).2 with ⟨he, -⟩ | ⟨-, hne⟩
      · exact ⟨front, e, List.concat_eq_append, he, hfront⟩
      · cases hne
    · cases hnext

/-- The scan takes the bytes of a mark for what the mark does, and goes on
from outside; or the mark is an escape that no byte follows. -/
theorem Front.scan_eq (hd : d.Usable) {m : Mark} {rest xs : Bytes} {r : Region}
    (hfront : d.Front false m rest xs) (h : d.regionAfter .outside xs = some r) :
    m.turn false = false ∧ d.scanRoles .outside xs = m.roles ++ d.scanRoles .outside rest ∧
      (d.regionAfter .outside rest = some r ∨ rest = [] ∧ r = .escaped) := by
  cases hfront with
  | divider some_delimiter =>
    obtain ⟨hregion, hroles⟩ := scanRoles_outside fun b hb => next_delimiter hd hb
    rw [regionAfter_append, hregion] at h
    refine ⟨rfl, ?_, .inl h⟩
    rw [scanRoles_append hregion nofun, hroles]
    rfl
  | opening noDivider isQuote => cases isQuote.trans hquote
  | @pair b c rest noDivider noQuote isEscape =>
    have hb : b ≠ Csv.lineFeed := (hd.escape_end b (escape_of_plainEscape isEscape)).1
    have hnext := next_escaped hb noQuote isEscape
    rw [regionAfter, hnext] at h
    exact ⟨rfl, scanRoles_pair hnext c rest, .inl h⟩
  | @plain b rest noDivider noQuote noEscape =>
    obtain ⟨next, hnext, hrest⟩ := Option.bind_eq_some_iff.mp h
    refine ⟨rfl, ?_, ?_⟩
    · rw [scanRoles_next hnext]
      rcases (next_outside_quoteless hquote hnext).2 with ⟨he, rfl⟩ | ⟨-, rfl⟩
      · obtain rfl := noEscape he
        rfl
      · rfl
    · rcases (next_outside_quoteless hquote hnext).2 with ⟨he, rfl⟩ | ⟨-, rfl⟩
      · obtain rfl := noEscape he
        exact .inr ⟨rfl, (Option.some.inj hrest).symm⟩
      · exact .inl hrest

/-- On bytes none of which end the record the scan and the marks agree. -/
theorem scanRoles_eq (hd : d.Usable) {xs : Bytes} {r : Region}
    (h : d.regionAfter .outside xs = some r) :
    d.scanRoles .outside xs = (d.splitMarks false xs).flatMap Mark.roles := by
  generalize hquoted : false = quoted
  induction quoted, xs using markwise (d := d) with
  | nil quoted =>
    rw [splitMarks_nil]
    rfl
  | mark quoted m rest xs hfront ih =>
    subst hquoted
    obtain ⟨hturn, hroles, hregion⟩ := hfront.scan_eq hquote hd h
    rw [hfront.splitMarks_eq, List.flatMap_cons, hroles]
    rcases hregion with hregion | ⟨rfl, -⟩
    · rw [ih hregion hturn.symm]
    · rw [splitMarks_nil]
      rfl

/-- An escape behind the bytes of a record is left over as content. -/
theorem splitMarks_concat (hd : d.Usable) {front : Bytes} {e : UInt8} (he : some e = d.plainEscape)
    (h : d.regionAfter .outside front = some .outside) :
    d.splitMarks false (front ++ [e]) = d.splitMarks false front ++ [.content [e] e] := by
  generalize hquoted : false = quoted
  induction quoted, front using markwise (d := d) with
  | nil quoted =>
    subst hquoted
    have hlone : d.Front false (.content [e] e) [] [e] := by
      refine .plain (fun hsome hlead => ?_) (by simp [hquote]) fun _ => rfl
      rcases List.prefix_cons_iff.mp hlead with hnil | ⟨tail, htail, -⟩
      · exact hsome hnil
      · refine hd.delimiter_escape e ?_ (escape_of_plainEscape he)
        rw [htail]
        exact List.mem_cons_self
    rw [splitMarks_nil, List.nil_append, hlone.splitMarks_eq, splitMarks_nil]
    rfl
  | mark quoted m rest xs hfront ih =>
    subst hquoted
    obtain ⟨hturn, -, hregion⟩ := hfront.scan_eq hquote hd h
    rcases hregion with hregion | ⟨-, hescaped⟩
    · rw [(hfront.concat_escape hd he h).splitMarks_eq, hfront.splitMarks_eq,
        ih hregion hturn.symm, List.cons_append]
    · cases hescaped

/-! ## The end of a record -/

/-- What a record's bytes before its line feed are taken for. -/
theorem splitRoles_cases (hd : d.Usable) {body : Bytes} {r : Region}
    (h : d.regionAfter .outside body = some r) :
    (¬ d.EndsEscaped (body ++ [Csv.lineFeed]) ∧
      d.splitRoles (body ++ [Csv.lineFeed]) = d.scanRoles .outside body ++ [.plain]) ∨
    (d.EndsEscaped (body ++ [Csv.lineFeed]) ∧
      ∃ front e, some e = d.plainEscape ∧ d.Loses front e (body ++ [Csv.lineFeed])) := by
  rw [endsEscaped_iff]
  by_cases hlast : body.getLast? = some Csv.carriageReturn
  · obtain ⟨xs, rfl⟩ := List.getLast?_eq_some_iff.mp hlast
    rw [regionAfter_append] at h
    obtain ⟨region, hxs, hreturn⟩ := Option.bind_eq_some_iff.mp h
    have hstrip : stripEnd (xs ++ [Csv.carriageReturn] ++ [Csv.lineFeed]) = xs := by
      rw [List.append_assoc]
      exact stripEnd_return xs
    rcases regionAfter_quoteless hquote (.inl rfl) hxs with rfl | rfl
    · refine .inl ⟨?_, ?_⟩
      · rintro ⟨front, hfront, hescaped⟩
        rw [List.append_left_inj] at hfront
        subst hfront
        rw [hxs] at hescaped
        cases hescaped
      · rw [splitRoles, hstrip, ← scanRoles_eq hquote hd hxs, scanRoles_append hxs nofun,
          List.append_assoc, List.append_assoc, List.drop_left, scanRoles_next (next_return hd)]
        rfl
    · obtain ⟨front, e, rfl, he, hfront⟩ := exists_of_regionAfter_escaped hquote hxs
      have hend : e ≠ Csv.lineFeed := (hd.escape_end e (escape_of_plainEscape he)).1
      have hnext := next_escaped hend (by simp [hquote]) he
      refine .inr ⟨⟨_, rfl, hxs⟩, front, e, he, ?_, hstrip, ?_, ?_⟩
      · simp
      · rw [hstrip, splitMarks_concat hquote hd he hfront]
      · rw [scanRoles_append hfront nofun, scanRoles_pair hnext, scanRoles_eq hquote hd hfront]
        rfl
  · have hstrip := stripEnd_lineFeed hlast
    refine .inl ⟨?_, ?_⟩
    · rintro ⟨front, rfl, -⟩
      exact hlast List.getLast?_concat
    · rw [splitRoles, hstrip, ← scanRoles_eq hquote hd h, List.drop_left]
      rfl

/-- A record's bytes up to its line feed, or with it, are taken for the
same by the scan and by the splitter, unless an escaped carriage return
stands there. -/
theorem scanRoles_eq_take_iff (hd : d.Usable) {body : Bytes} {r : Region}
    (h : d.regionAfter .outside body = some r) {last : Bytes}
    (hlast : last = [] ∨ last = [Csv.lineFeed] ∧ r = .outside) :
    d.scanRoles .outside (body ++ last)
        = (d.splitRoles (body ++ [Csv.lineFeed])).take (body ++ last).length
      ↔ ¬ d.EndsEscaped (body ++ [Csv.lineFeed]) := by
  have hscan : d.scanRoles .outside (body ++ last)
      = d.scanRoles .outside body ++ last.map fun _ => .plain := by
    rcases hlast with rfl | ⟨rfl, rfl⟩
    · simp
    · rw [scanRoles_append h nofun]
      rfl
  have hlength := length_scanRoles h
  rcases splitRoles_cases hquote hd h with ⟨hends, hsplit⟩ | ⟨hends, front, e, he, hloses⟩
  · refine iff_of_true ?_ hends
    rw [hscan, hsplit, List.length_append, ← hlength, List.take_length_add_append]
    rcases hlast with rfl | ⟨rfl, -⟩ <;> rfl
  · refine iff_of_false (fun heq => ?_) (not_not_intro hends)
    have hraw : body ++ [Csv.lineFeed] = (front ++ [e, Csv.carriageReturn]) ++ [Csv.lineFeed] := by
      rw [hloses.raw_eq, List.append_assoc]
      rfl
    obtain rfl := List.append_cancel_right hraw
    rw [hscan, hloses.scanRoles_eq, hloses.splitRoles_eq, List.append_assoc] at heq
    have hroles : ((d.splitMarks false front).flatMap Mark.roles).length = front.length := by
      rw [hloses.scanRoles_eq] at hlength
      simpa using hlength
    -- what the escape is taken for
    have hat := congrArg (·[front.length]?) heq
    simp [← hroles] at hat

/-- The marks of a record without quotes stand for their bytes, or for
the byte that an escape makes literal. -/
theorem content_of_mem_splitMarks {xs : Bytes} {a c stands : UInt8}
    (h : .content [a, c] stands ∈ d.splitMarks false xs) :
    some a = d.plainEscape ∧ stands = unescape c := by
  generalize hquoted : false = quoted at h
  induction quoted, xs using markwise (d := d) with
  | nil quoted => simp at h
  | mark quoted m rest xs hfront ih =>
    subst hquoted
    rw [hfront.splitMarks_eq, List.mem_cons] at h
    rcases h with rfl | h
    · cases hfront with
      | pair noDivider noQuote isEscape => exact ⟨isEscape, rfl⟩
    · refine ih ?_ h
      cases hfront with
      | opening noDivider isQuote => cases isQuote.trans hquote
      | _ => rfl

end Quoteless

end Dialect

/-! ## Records -/

namespace Division

variable {d : Dialect} {forced : List Bool} {limit count : Nat} {D : Division} {x : Record}

/-- A record that is delivered has the bytes of a segment, divided. -/
theorem of_mem_outcomes (h : .ok (some x) ∈ D.outcomes d forced limit count) :
    x.raw ∈ D.segments ∧ x.fields = split d forced (stripEnd x.raw) := by
  rcases List.mem_append.mp h with h | h
  · obtain ⟨x', hx', heq⟩ := List.mem_map.mp h
    obtain rfl := Option.some.inj (Except.ok.inj heq)
    obtain ⟨⟨segment, number⟩, hmem, rfl⟩ := List.mem_map.mp hx'
    have hwhole := (List.takeWhile_prefix _).subset (List.fst_mem_of_mem_zipIdx hmem)
    exact ⟨D.whole_prefix.subset hwhole, rfl⟩
  · have hstop := List.mem_singleton.mp h
    simp only [stop] at hstop
    split at hstop
    · cases hstop
    · split at hstop <;> cases hstop

end Division

/-- A segment is a part of the input with a line feed at its end: one that
the scan has stopped at, or one that was added. -/
theorem Dialect.part_of_mem_segments (d : Dialect) (input : Bytes) {s : Bytes}
    (h : s ∈ (d.divide input).segments) :
    ∃ body last r, d.regionAfter .outside body = some r ∧
      (last = [] ∨ last = [Csv.lineFeed] ∧ r = .outside) ∧ s = body ++ [Csv.lineFeed] ∧
      (body ++ last ∈ (d.divide input).closed ∧ s = body ++ last ∨
        body ++ last = (d.divide input).tail ∧ s = body ++ last ++ [Csv.lineFeed]) := by
  obtain ⟨hclosed, htail⟩ := @regionAfter_divideFrom d .outside [] rfl input
  rcases List.mem_append.mp h with h | h
  · obtain ⟨body, rfl, hbody⟩ := hclosed s h
    exact ⟨body, _, _, hbody, .inr ⟨rfl, rfl⟩, rfl, .inl ⟨h, rfl⟩⟩
  · split at h
    · cases h
    · next hne =>
      rw [Division.completion, if_neg hne] at h
      obtain rfl := List.mem_singleton.mp h
      refine ⟨_, [], _, htail, .inl rfl, rfl, .inr ⟨List.append_nil _, ?_⟩⟩
      rw [List.append_nil]
      rfl

namespace DelimitedReader

/-- **Where there are no quotes, the splitter takes every byte for what
the scan does, with one exception.** The bytes of the input are those of
the parts that the scan divides it into, and a record that is delivered
is such a part, with a line feed where the input ends without one. What
either automaton takes its bytes for is the same exactly if the record
does not end with an escaped carriage return. If it does, the scan has
taken that byte for a literal one, but it is stripped, and the escape
before it is content. -/
theorem escapes_agree_iff {d : Dialect} {e : UInt8} (hd : d.check = .ok ()) (hq : d.quote = none)
    (he : d.escape = some e) (input : Bytes) (cuts : List Cut) (forced : List Bool)
    (size limit n : Nat) :
    let reader : DelimitedReader :=
      { source := { rest := input, cuts := cuts }, buffer := .ofSizes size limit,
        dialect := d, forced := forced }
    let D := d.divide input
    D.closed.flatten ++ D.tail = input ∧
      ∀ x, .ok (some x) ∈ reader.outcomes n →
        let marks := d.splitMarks false (stripEnd x.raw)
        x.fields = d.fieldsOf forced marks ∧
          (∀ a c stands, .content [a, c] stands ∈ marks → a = e ∧ stands = unescape c) ∧
          ∃ part,
            (part ∈ D.closed ∧ x.raw = part ∨ part = D.tail ∧ x.raw = part ++ [Csv.lineFeed]) ∧
            (d.scanRoles .outside part = (d.splitRoles x.raw).take part.length
              ↔ ¬ d.EndsEscaped x.raw) ∧
            (d.EndsEscaped x.raw → ∃ front, d.Loses front e x.raw) := by
  intro reader D
  have husable := Dialect.usable_of_check hd
  have hplain : d.plainEscape = some e := by
    rw [Dialect.plainEscape, hq]
    exact he
  have hdivide := d.flatten_divideFrom .outside [] input
  refine ⟨hdivide, fun x hx => ?_⟩
  have hready := ready_start input cuts d forced size limit
  rw [outcomes_eq_expected hready] at hx
  obtain ⟨hsegment, hfields⟩ := Division.of_mem_outcomes ((List.take_prefix _ _).subset hx)
  refine ⟨?_, fun a c stands hmem => ?_, ?_⟩
  · rw [hfields, Dialect.split_eq_fieldsOf husable.some_delimiter]
  · obtain ⟨ha, hstands⟩ := Dialect.content_of_mem_splitMarks hq hmem
    exact ⟨Option.some.inj (ha.trans hplain), hstands⟩
  · obtain ⟨body, last, r, hbody, hlast, hraw, hpart⟩ := d.part_of_mem_segments input hsegment
    refine ⟨body ++ last, hpart, ?_, ?_⟩
    · rw [hraw]
      exact Dialect.scanRoles_eq_take_iff hq husable hbody hlast
    · rw [hraw]
      intro hends
      rcases Dialect.splitRoles_cases hq husable hbody with ⟨hnot, -⟩ | ⟨-, front, e', he', hloses⟩
      · exact absurd hends hnot
      · obtain rfl := Option.some.inj (he'.trans hplain)
        exact ⟨front, hloses⟩

/-- An escaped delimiter and two escapes before a line end. -/
theorem escapes_agree_pairs :
    Dialect.text.check = .ok () ∧ Dialect.text.quote = none ∧ Dialect.text.escape = some 0x5C ∧
      Dialect.text.splitMarks false (Bytes.ascii "a\\\t\tb\\\\")
        = [.content [0x61] 0x61, .content [0x5C, 0x09] 0x09, .divider [0x09], .content [0x62] 0x62,
            .content [0x5C, 0x5C] 0x5C] ∧
      ∀ x, .ok (some x) ∈ DelimitedReader.outcomes
          { source :=
              { rest := Bytes.ascii "a\\\t\tb\\\\\r\n", cuts := [.atMost 2, .atMost 7] }
            buffer := .ofSizes 4 64, dialect := .text, forced := [] } 2 →
        x.fields = Dialect.text.fieldsOf [] (Dialect.text.splitMarks false (stripEnd x.raw)) ∧
          ∃ part, Dialect.text.scanRoles .outside part
              = (Dialect.text.splitRoles x.raw).take part.length
            ↔ ¬ Dialect.text.EndsEscaped x.raw := by
  refine ⟨rfl, rfl, rfl, by decide +kernel, fun x hx => ?_⟩
  obtain ⟨hfields, -, part, -, hiff, -⟩ :=
    (escapes_agree_iff (e := 0x5C) rfl rfl rfl _ _ _ _ _ _).2 x hx
  exact ⟨hfields, part, hiff⟩

/-- An escaped carriage return before a line feed: the scan takes it for
a literal byte, and the record has a field with the escape alone. -/
theorem escaped_return_lost :
    Dialect.text.check = .ok () ∧ Dialect.text.quote = none ∧ Dialect.text.escape = some 0x5C ∧
      Dialect.text.scanRoles .outside [0x5C, 0x0D, 0x0A] = [.escape, .escaped, .plain] ∧
      Dialect.text.splitRoles [0x5C, 0x0D, 0x0A] = [.plain, .plain, .plain] ∧
      unescape 0x0D = 0x0D ∧
      DelimitedReader.outcomes
          { source := { rest := [0x5C, 0x0D, 0x0A], cuts := [] }, buffer := .ofSizes 4 64,
            dialect := .text, forced := [] } 2
        = [.ok (some ⟨1, [0x5C, 0x0D, 0x0A], [⟨[0x5C], false⟩], none⟩), .ok none] := by
  refine ⟨rfl, rfl, rfl, by decide, by decide +kernel, rfl, ?_⟩
  with_unfolding_all rfl

end DelimitedReader
end Intake
