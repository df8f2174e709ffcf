import Intake.Proofs.Options.Usable
import Intake.Proofs.Record.Rounds
/-!
# What the bytes of a delimited record mean

The splitter of a record takes one or more bytes at a time and decides
what they are: content, a quote, the delimiter. Those decisions are made
explicit here as a list of marks (`Dialect.splitMarks`), each with the
bytes that it was read from. `splitFrom_eq` says that the splitter does
nothing but heed the marks one after another, and `split_eq_fieldsOf`
says what that comes to: a field for every run of marks between two
dividers, with the content of its run, and NULL where the bytes of the
run are the marker and its place is not forced.

Whether the end of a record is where the splitter's caller says is no
concern of the marks in this module, with one exception: the mark of a
record's end is declared here, for those who read a whole input.
-/

namespace Intake
namespace Dialect

/-- What some bytes of a delimited input mean. -/
inductive Mark where
  /-- Bytes that stand for one byte of content. -/
  | content (bytes : Bytes) (stands : UInt8)
  /-- A quote, at which a quoted span begins or ends. -/
  | quote (byte : UInt8)
  /-- The delimiter between two fields. -/
  | divider (bytes : Bytes)
  /-- The end of a record. -/
  | stop (bytes : Bytes)
  deriving DecidableEq, Repr

namespace Mark

/-- The bytes that a mark was read from. -/
def read : Mark → Bytes
  | content bs _ => bs
  | quote b => [b]
  | divider bs => bs
  | stop bs => bs

@[simp] theorem read_content (bs : Bytes) (b : UInt8) : (content bs b).read = bs := rfl

@[simp] theorem read_quote (b : UInt8) : (quote b).read = [b] := rfl

@[simp] theorem read_divider (bs : Bytes) : (divider bs).read = bs := rfl

@[simp] theorem read_stop (bs : Bytes) : (stop bs).read = bs := rfl

/-- The byte of content that a mark stands for, if any. -/
def stands? : Mark → Option UInt8
  | content _ b => some b
  | _ => none

/-- Whether a field ends at a mark. -/
def isDivider : Mark → Bool
  | divider _ => true
  | _ => false

/-- Whether a record ends at a mark. -/
def isStop : Mark → Bool
  | stop _ => true
  | _ => false

/-- Whether the bytes after a mark are within quotes, by whether it is. -/
def turn (quoted : Bool) : Mark → Bool
  | quote _ => !quoted
  | _ => quoted

end Mark

/-- The mark of a byte within quotes. -/
def quotedMark (d : Dialect) (b : UInt8) : Bytes → Mark
  | [] => if some b = d.quote then .quote b else .content [b] b
  | c :: _ =>
    if some b = d.quotedEscape ∧ (some c = d.quote ∨ some c = d.quotedEscape) then
      .content [b, c] c
    else if some b = d.quote then
      if d.quotedEscape = none ∧ c = b then .content [b, c] b else .quote b
    else .content [b] b

/-- The mark of a byte outside quotes that does not end the record. -/
def plainMark (d : Dialect) (b : UInt8) (rest : Bytes) : Mark :=
  if d.delimiter ≠ [] ∧ d.delimiter <+: b :: rest then .divider d.delimiter
  else if some b = d.quote then .quote b
  else if some b = d.plainEscape then
    match rest with
    | c :: _ => .content [b, c] (unescape c)
    | [] => .content [b] b
  else .content [b] b

/-- The mark of a byte that does not end the record. -/
def bodyMark (d : Dialect) (quoted : Bool) (b : UInt8) (rest : Bytes) : Mark :=
  if quoted then d.quotedMark b rest else d.plainMark b rest

/-- A mark at the front of some bytes, and the bytes that it leaves:
every case there is, with all that decides for it. -/
inductive Front (d : Dialect) : Bool → Mark → Bytes → Bytes → Prop where
  /-- An escape within quotes, before a quote or an escape. -/
  | escaped {b c : UInt8} {rest : Bytes} (isEscape : some b = d.quotedEscape)
      (literal : some c = d.quote ∨ some c = d.quotedEscape) :
      Front d true (.content [b, c] c) rest (b :: c :: rest)
  /-- Two quotes within quotes, where no other byte escapes. -/
  | doubled {b : UInt8} {rest : Bytes} (isQuote : some b = d.quote)
      (alone : d.quotedEscape = none) : Front d true (.content [b, b] b) rest (b :: b :: rest)
  /-- A quote within quotes. -/
  | closing {b : UInt8} {rest : Bytes} (isQuote : some b = d.quote)
      (single : d.quotedEscape = none → rest.head? ≠ some b) :
      Front d true (.quote b) rest (b :: rest)
  /-- Any other byte within quotes. -/
  | quoted {b : UInt8} {rest : Bytes} (noQuote : some b ≠ d.quote)
      (noEscape : some b = d.quotedEscape → ∀ c ∈ rest.head?,
        some c ≠ d.quote ∧ some c ≠ d.quotedEscape) :
      Front d true (.content [b] b) rest (b :: rest)
  /-- The delimiter outside quotes. -/
  | divider {rest : Bytes} (some_delimiter : d.delimiter ≠ []) :
      Front d false (.divider d.delimiter) rest (d.delimiter ++ rest)
  /-- A quote outside quotes. -/
  | opening {b : UInt8} {rest : Bytes} (noDivider : d.delimiter ≠ [] → ¬ d.delimiter <+: b :: rest)
      (isQuote : some b = d.quote) : Front d false (.quote b) rest (b :: rest)
  /-- An escape, where there are no quotes. -/
  | pair {b c : UInt8} {rest : Bytes}
      (noDivider : d.delimiter ≠ [] → ¬ d.delimiter <+: b :: c :: rest)
      (noQuote : some b ≠ d.quote) (isEscape : some b = d.plainEscape) :
      Front d false (.content [b, c] (unescape c)) rest (b :: c :: rest)
  /-- Any other byte outside quotes. -/
  | plain {b : UInt8} {rest : Bytes} (noDivider : d.delimiter ≠ [] → ¬ d.delimiter <+: b :: rest)
      (noQuote : some b ≠ d.quote) (noEscape : some b = d.plainEscape → rest = []) :
      Front d false (.content [b] b) rest (b :: rest)

section Front

variable {d : Dialect} {quoted : Bool} {m : Mark} {rest bs : Bytes}

/-- There is a mark at the front of any byte. -/
theorem front_bodyMark (d : Dialect) (quoted : Bool) (b : UInt8) (tail : Bytes) :
    d.Front quoted (d.bodyMark quoted b tail)
      ((b :: tail).drop (d.bodyMark quoted b tail).read.length) (b :: tail) := by
  cases quoted with
  | true =>
    cases tail with
    | nil =>
      simp only [bodyMark, if_true, quotedMark]
      split
      · next hq => exact .closing hq fun _ => by simp
      · next hq => exact .quoted hq fun _ => by simp
    | cons c tail =>
      simp only [bodyMark, if_true, quotedMark]
      split
      · next h => exact .escaped h.1 h.2
      · next h =>
        split
        · next hq =>
          split
          · next hd =>
            obtain ⟨hn, rfl⟩ := hd
            exact .doubled hq hn
          · next hd =>
            refine .closing hq fun hn hc => hd ⟨hn, ?_⟩
            simpa using hc
        · next hq =>
          refine .quoted hq fun he x hx => ?_
          obtain rfl : c = x := by simpa using hx
          simpa [he] using h
  | false =>
    simp only [bodyMark, Bool.false_eq_true, if_false, plainMark]
    split
    · next h =>
      obtain ⟨hne, tail', htail⟩ := h
      simp only [← htail, Mark.read, List.drop_left]
      exact .divider hne
    · next h =>
      have hno : d.delimiter ≠ [] → ¬ d.delimiter <+: b :: tail := fun hne hp => h ⟨hne, hp⟩
      split
      · next hq => exact .opening hno hq
      · next hq =>
        split
        · next he =>
          cases tail with
          | nil => exact .plain hno hq fun _ => rfl
          | cons c tail => exact .pair hno hq he
        · next he => exact .plain hno hq fun h => absurd h he

/-- The mark at the front of some bytes is the one that the bytes have. -/
theorem Front.eq_bodyMark (h : d.Front quoted m rest bs) :
    ∃ b tail, bs = b :: tail ∧ m = d.bodyMark quoted b tail ∧ rest = bs.drop m.read.length := by
  cases h with
  | @escaped b c rest he hc =>
    exact ⟨b, c :: rest, rfl, by simp only [bodyMark, quotedMark, if_pos, he, hc, and_self], rfl⟩
  | @doubled b rest hq hn =>
    refine ⟨b, b :: rest, rfl, ?_, rfl⟩
    simp [bodyMark, quotedMark, hq, hn]
  | @closing b rest hq hs =>
    refine ⟨b, rest, rfl, ?_, rfl⟩
    cases rest with
    | nil => simp [bodyMark, quotedMark, hq]
    | cons c rest =>
      have he : ¬ some b = d.quotedEscape := fun he => ne_quote_of_quotedEscape he hq
      have hs' : ¬ (d.quotedEscape = none ∧ c = b) := by simpa using hs
      simp only [bodyMark, if_true, quotedMark, he, false_and, if_false]
      rw [if_pos hq, if_neg hs']
  | @quoted b rest hq hs =>
    refine ⟨b, rest, rfl, ?_, rfl⟩
    cases rest with
    | nil => simp [bodyMark, quotedMark, hq]
    | cons c rest =>
      have hs' : ¬ (some b = d.quotedEscape ∧ (some c = d.quote ∨ some c = d.quotedEscape)) := by
        rintro ⟨he, hc⟩
        exact hc.elim (hs he c rfl).1 (hs he c rfl).2
      simp only [bodyMark, if_true, quotedMark, hq, hs', if_false]
  | @divider rest hne =>
    obtain ⟨b, xs, hd⟩ := List.exists_cons_of_ne_nil hne
    refine ⟨b, xs ++ rest, by simp [hd], ?_, by simp⟩
    have hp : d.delimiter <+: b :: (xs ++ rest) := ⟨rest, by simp [hd]⟩
    simp [bodyMark, plainMark, hne, hp]
  | @opening b rest hno hq =>
    refine ⟨b, rest, rfl, ?_, rfl⟩
    simp only [bodyMark, Bool.false_eq_true, if_false, plainMark, not_and.mpr hno, hq, if_true]
  | @pair b c rest hno hq he =>
    refine ⟨b, c :: rest, rfl, ?_, rfl⟩
    simp only [bodyMark, Bool.false_eq_true, if_false, plainMark, not_and.mpr hno, hq]
    rw [if_pos he]
  | @plain b rest hno hq he =>
    refine ⟨b, rest, rfl, ?_, rfl⟩
    simp only [bodyMark, Bool.false_eq_true, if_false, plainMark, not_and.mpr hno, hq]
    split
    · next h => rw [he h]
    · rfl

/-- A mark is read from the bytes before those that it leaves. -/
theorem Front.read_append (h : d.Front quoted m rest bs) : m.read ++ rest = bs := by
  cases h <;> rfl

theorem Front.read_ne_nil (h : d.Front quoted m rest bs) : m.read ≠ [] := by
  cases h with
  | divider some_delimiter => exact some_delimiter
  | _ => exact List.cons_ne_nil _ _

/-- A mark leaves fewer bytes. -/
theorem Front.length_lt (h : d.Front quoted m rest bs) : rest.length < bs.length := by
  have hpos := List.length_pos_iff.mpr h.read_ne_nil
  rw [← h.read_append, List.length_append]
  omega

/-- Only outside quotes is there a divider. -/
theorem Front.outside_of_isDivider (h : d.Front quoted m rest bs) (hm : m.isDivider = true) :
    quoted = false := by
  cases h <;> first | rfl | cases hm

theorem Front.isStop_eq (h : d.Front quoted m rest bs) : m.isStop = false := by
  cases h <;> rfl

end Front

/-- The marks of a record's bytes, its end stripped, from within quotes
or from outside. -/
def splitMarks (d : Dialect) (quoted : Bool) : Bytes → List Mark
  | [] => []
  | b :: rest =>
    d.bodyMark quoted b rest ::
      splitMarks d ((d.bodyMark quoted b rest).turn quoted)
        ((b :: rest).drop (d.bodyMark quoted b rest).read.length)
termination_by bs => bs.length
decreasing_by exact (d.front_bodyMark quoted b rest).length_lt

@[simp] theorem splitMarks_nil (d : Dialect) (quoted : Bool) : d.splitMarks quoted [] = [] := by
  rw [splitMarks]

theorem splitMarks_cons (d : Dialect) (quoted : Bool) (b : UInt8) (rest : Bytes) :
    d.splitMarks quoted (b :: rest) = d.bodyMark quoted b rest ::
      d.splitMarks ((d.bodyMark quoted b rest).turn quoted)
        ((b :: rest).drop (d.bodyMark quoted b rest).read.length) := by
  rw [splitMarks]

theorem Front.splitMarks_eq {d : Dialect} {quoted : Bool} {m : Mark} {rest bs : Bytes}
    (h : d.Front quoted m rest bs) :
    d.splitMarks quoted bs = m :: d.splitMarks (m.turn quoted) rest := by
  obtain ⟨b, tail, rfl, rfl, rfl⟩ := h.eq_bodyMark
  exact d.splitMarks_cons quoted b tail

/-- What holds of no bytes, and of bytes whenever it holds of those that
the mark at their front leaves, holds of all bytes. -/
@[elab_as_elim]
theorem markwise {d : Dialect} {motive : Bool → Bytes → Prop} (nil : ∀ quoted, motive quoted [])
    (mark : ∀ quoted m rest bs, d.Front quoted m rest bs → motive (m.turn quoted) rest →
      motive quoted bs) (quoted : Bool) (bs : Bytes) : motive quoted bs := by
  induction hk : bs.length using Nat.strongRecOn generalizing quoted bs with
  | ind k ih =>
    cases bs with
    | nil => exact nil quoted
    | cons b tail =>
      have hfront := d.front_bodyMark quoted b tail
      exact mark _ _ _ _ hfront (ih _ (hk ▸ hfront.length_lt) _ _ rfl)

/-- The end of a record is not the splitter's. -/
theorem isStop_of_mem_splitMarks {d : Dialect} {quoted : Bool} {bs : Bytes} {m : Mark}
    (h : m ∈ d.splitMarks quoted bs) : m.isStop = false := by
  induction quoted, bs using markwise (d := d) with
  | nil quoted => simp at h
  | mark quoted m' rest bs hfront ih =>
    rw [hfront.splitMarks_eq, List.mem_cons] at h
    rcases h with rfl | h
    · exact hfront.isStop_eq
    · exact ih h

end Dialect

/-! ## What is stripped from the end -/

namespace Dialect

theorem stripEnd_return (xs : Bytes) :
    stripEnd (xs ++ [Csv.carriageReturn, Csv.lineFeed]) = xs := by
  simp [stripEnd]

theorem stripEnd_lineFeed {xs : Bytes} (h : xs.getLast? ≠ some Csv.carriageReturn) :
    stripEnd (xs ++ [Csv.lineFeed]) = xs := by
  cases hx : xs.reverse with
  | nil =>
    obtain rfl := List.reverse_eq_nil_iff.mp hx
    rfl
  | cons c rest =>
    have hc : c ≠ Csv.carriageReturn := by
      rintro rfl
      apply h
      rw [List.getLast?_eq_head?_reverse, hx]
      rfl
    simp only [stripEnd, List.reverse_append, List.reverse_singleton, List.singleton_append, hx,
      if_true, hc, if_false]
    rw [← hx, List.reverse_reverse]

end Dialect

/-! ## The splitter heeds marks -/

namespace Splitting

/-- A splitting after one more mark. -/
def heed (d : Dialect) (s : Splitting) : Dialect.Mark → Splitting
  | .content bs b => { s with raw := bs.reverse ++ s.raw, data := b :: s.data }
  | .quote b => s.toggle b (!s.quoted)
  | .divider _ => s.close d
  | .stop _ => s

/-- A splitting after the rest of a record. -/
def after (d : Dialect) (s : Splitting) (bs : Bytes) : Splitting :=
  (d.splitMarks s.quoted bs).foldl (heed d) s

end Splitting

namespace Dialect

theorem not_divides {d : Dialect} {bs : Bytes} (hd : d.delimiter ≠ [])
    (h : d.delimiter ≠ [] → ¬ d.delimiter <+: bs) : d.delimiter.isPrefixOf bs = false := by
  rw [← Bool.not_eq_true, List.isPrefixOf_iff_prefix]
  exact h hd

/-- One round of the splitter: it heeds the mark at the front and goes on
after it. -/
theorem Front.round_eq {d : Dialect} {s : Splitting} {m : Mark} {b : UInt8} {rest tail : Bytes}
    (hd : d.delimiter ≠ []) (h : d.Front s.quoted m rest (b :: tail)) :
    s.round d b tail = (s.heed d m, rest) := by
  generalize hquoted : s.quoted = quoted at h
  generalize hbs : b :: tail = bs at h
  unfold Splitting.round
  cases h with
  | @escaped b c rest he hc =>
    obtain ⟨rfl, rfl⟩ := List.cons.inj hbs
    simp only [hquoted, if_true, he, hc, and_self]
    rfl
  | @doubled b rest hq hn =>
    obtain ⟨rfl, rfl⟩ := List.cons.inj hbs
    simp [hquoted, hq, hn, Splitting.heed, Splitting.pair]
  | @closing b rest hq hs =>
    obtain ⟨rfl, rfl⟩ := List.cons.inj hbs
    cases tail with
    | nil => simp [hquoted, hq, Splitting.heed]
    | cons c tail =>
      have he : ¬ some b = d.quotedEscape := fun he => ne_quote_of_quotedEscape he hq
      have hs' : ¬ (d.quotedEscape.isNone = true ∧ c = b) := by simpa using hs
      simp only [hquoted, if_true, he, false_and, if_false, Splitting.heed, Bool.not_true]
      rw [if_pos hq, if_neg hs']
  | @quoted b rest hq hs =>
    obtain ⟨rfl, rfl⟩ := List.cons.inj hbs
    cases tail with
    | nil => simp [hquoted, hq, Splitting.heed, Splitting.keep]
    | cons c tail =>
      have hs' : ¬ (some b = d.quotedEscape ∧ (some c = d.quote ∨ some c = d.quotedEscape)) := by
        rintro ⟨he, hc⟩
        exact hc.elim (hs he c rfl).1 (hs he c rfl).2
      simp only [hquoted, if_true, hs', if_false, hq]
      rfl
  | @divider rest hne =>
    have hp : d.delimiter.isPrefixOf (b :: tail) = true :=
      List.isPrefixOf_iff_prefix.mpr ⟨rest, hbs.symm⟩
    rw [hquoted, if_neg Bool.false_ne_true, if_pos hp, hbs, List.drop_left]
    rfl
  | @opening b rest hno hq =>
    obtain ⟨rfl, rfl⟩ := List.cons.inj hbs
    simp only [hquoted, not_divides hd hno, hq, Bool.false_eq_true, if_false, if_true,
      Splitting.heed, Bool.not_false]
  | @pair b c rest hno hq he =>
    obtain ⟨rfl, rfl⟩ := List.cons.inj hbs
    simp only [hquoted, not_divides hd hno, hq, Bool.false_eq_true, if_false]
    rw [if_pos he]
    rfl
  | @plain b rest hno hq he =>
    obtain ⟨rfl, rfl⟩ := List.cons.inj hbs
    simp only [hquoted, not_divides hd hno, hq, Bool.false_eq_true, if_false]
    split
    · next h =>
      rw [he h]
      rfl
    · rfl

theorem Front.splitFrom_eq {d : Dialect} {s : Splitting} {m : Mark} {rest bs : Bytes}
    (hd : d.delimiter ≠ []) (h : d.Front s.quoted m rest bs) :
    splitFrom d hd s bs = splitFrom d hd (s.heed d m) rest := by
  obtain ⟨b, tail, rfl, -, -⟩ := h.eq_bodyMark
  rw [splitFrom_cons, h.round_eq hd]

theorem Front.quoted_heed {d : Dialect} {s : Splitting} {m : Mark} {rest bs : Bytes}
    (h : d.Front s.quoted m rest bs) : (s.heed d m).quoted = m.turn s.quoted := by
  cases m with
  | divider bs => exact (h.outside_of_isDivider rfl).symm
  | _ => rfl

theorem Front.after_eq {d : Dialect} {s : Splitting} {m : Mark} {rest bs : Bytes}
    (h : d.Front s.quoted m rest bs) : s.after d bs = (s.heed d m).after d rest := by
  rw [Splitting.after, Splitting.after, h.quoted_heed, h.splitMarks_eq, List.foldl_cons]

/-- The splitter heeds the marks of its record and nothing else. -/
theorem splitFrom_eq {d : Dialect} (hd : d.delimiter ≠ []) (s : Splitting) (bs : Bytes) :
    splitFrom d hd s bs = (s.after d bs).fields d := by
  generalize hquoted : s.quoted = quoted
  induction quoted, bs using markwise (d := d) generalizing s with
  | nil quoted =>
    rw [splitFrom.eq_def, Splitting.after, splitMarks_nil]
    rfl
  | mark quoted m rest bs hfront ih =>
    subst hquoted
    rw [hfront.splitFrom_eq hd, hfront.after_eq, ih _ hfront.quoted_heed]

/-- Whether a splitting is within quotes after some bytes is for their
marks to say. -/
theorem quoted_after (d : Dialect) (s : Splitting) (bs : Bytes) :
    (s.after d bs).quoted = (d.splitMarks s.quoted bs).foldl Mark.turn s.quoted := by
  generalize hquoted : s.quoted = quoted
  induction quoted, bs using markwise (d := d) generalizing s with
  | nil quoted =>
    rw [Splitting.after, splitMarks_nil, splitMarks_nil]
    exact hquoted
  | mark quoted m rest bs hfront ih =>
    subst hquoted
    rw [hfront.after_eq, ih _ hfront.quoted_heed, hfront.splitMarks_eq, List.foldl_cons]

/-! ## Fields -/

/-- The field of the marks between two dividers. -/
def fieldOf (d : Dialect) (forced : Bool) (span : List Mark) : Field :=
  { bytes := span.filterMap Mark.stands?
    isNull := !forced && span.flatMap Mark.read == d.nullMarker }

/-- The fields of a record's marks. The flags say for which of them the
NULL marker is content. -/
def fieldsOf (d : Dialect) (forced : List Bool) (ms : List Mark) : List Field :=
  (ms.splitOnP Mark.isDivider).mapIdx fun i span => d.fieldOf (forced.getD i false) span

section Fields

variable {d : Dialect} {forced : List Bool} {span ms : List Mark}

/-- Without a divider there is one field. -/
theorem fieldsOf_span (h : ∀ m ∈ span, m.isDivider = false) :
    d.fieldsOf forced span = [d.fieldOf (forced.headD false) span] := by
  rw [fieldsOf, List.splitOnP_eq_singleton h]
  cases forced <;> rfl

/-- A divider ends the first field. -/
theorem fieldsOf_divider (h : ∀ m ∈ span, m.isDivider = false) (bs : Bytes) :
    d.fieldsOf forced (span ++ .divider bs :: ms)
      = d.fieldOf (forced.headD false) span :: d.fieldsOf forced.tail ms := by
  rw [fieldsOf, List.splitOnP_append_cons_of_forall_mem h _ rfl, List.mapIdx_cons]
  cases forced <;> rfl

/-- **Joined by dividers, each field is found.** The marker is content only
in columns where a flag says so. -/
theorem fieldsOf_joined {α : Type} {marks : α → List Mark} {found : α → Field} {items : List α}
    (hne : items ≠ []) (hspan : ∀ a, ∀ m ∈ marks a, m.isDivider = false)
    (hfield : ∀ a ∈ items, ∀ force, (force = true → true ∈ forced) →
      d.fieldOf force (marks a) = found a) (bs : Bytes) :
    d.fieldsOf forced ([Mark.divider bs].intercalate (items.map marks)) = items.map found := by
  induction items generalizing forced with
  | nil => exact absurd rfl hne
  | cons a items ih =>
    have hfirst : d.fieldOf (forced.headD false) (marks a) = found a := by
      refine hfield a List.mem_cons_self _ fun hforce => ?_
      cases forced with
      | nil => cases hforce
      | cons flag flags => exact hforce ▸ List.mem_cons_self
    cases items with
    | nil =>
      rw [List.map_singleton, List.intercalate_singleton, fieldsOf_span (hspan a), hfirst]
      rfl
    | cons b items =>
      have hrest := ih (List.cons_ne_nil b items) fun c hc force hforce =>
        hfield c (List.mem_cons_of_mem a hc) force fun h => List.mem_of_mem_tail (hforce h)
      rw [List.map_cons] at hrest
      rw [List.map_cons, List.map_cons, List.intercalate_cons_cons, List.append_assoc,
        List.singleton_append, fieldsOf_divider (hspan a), hfirst, hrest]
      rfl

/-- Closing the field of some marks. -/
theorem close_eq {s : Splitting} (hraw : s.raw = (span.flatMap Mark.read).reverse)
    (hdata : s.data = (span.filterMap Mark.stands?).reverse) :
    s.close d = { done := d.fieldOf (s.forced.headD false) span :: s.done, forced := s.forced.tail }
    := by
  simp only [Splitting.close, fieldOf, hraw, hdata, List.reverse_reverse]

/-- What a mark that ends neither field nor record adds to a splitting. -/
theorem heed_within {m : Mark} (hdivider : m.isDivider = false) (hstop : m.isStop = false)
    (s : Splitting) : (s.heed d m).done = s.done ∧ (s.heed d m).forced = s.forced ∧
      (s.heed d m).raw = m.read.reverse ++ s.raw ∧
      (s.heed d m).data = m.stands?.toList ++ s.data := by
  cases m with
  | content bs b => exact ⟨rfl, rfl, rfl, rfl⟩
  | quote b => exact ⟨rfl, rfl, rfl, rfl⟩
  | divider bs => cases hdivider
  | stop bs => cases hstop

/-- The fields of a splitting that heeds marks, where `span` are those of
the current field so far. -/
theorem fields_foldl_heed (s : Splitting) (hspan : ∀ m ∈ span, m.isDivider = false)
    (hraw : s.raw = (span.flatMap Mark.read).reverse)
    (hdata : s.data = (span.filterMap Mark.stands?).reverse)
    (hstop : ∀ m ∈ ms, m.isStop = false) :
    (ms.foldl (Splitting.heed d) s).fields d
      = s.done.reverse ++ d.fieldsOf s.forced (span ++ ms) := by
  induction ms generalizing s span with
  | nil =>
    rw [List.foldl_nil, Splitting.fields, close_eq hraw hdata, List.append_nil,
      fieldsOf_span hspan, List.reverse_cons]
  | cons m ms ih =>
    have hstop' : ∀ x ∈ ms, x.isStop = false := fun x hx => hstop x (List.mem_cons_of_mem _ hx)
    rw [List.foldl_cons]
    cases hm : m.isDivider with
    | true =>
      cases m with
      | divider bs =>
        show (ms.foldl (Splitting.heed d) (s.close d)).fields d = _
        rw [fieldsOf_divider hspan bs, close_eq hraw hdata,
          ih _ (fun x (hx : x ∈ ([] : List Mark)) => absurd hx List.not_mem_nil) rfl rfl hstop',
          List.reverse_cons, List.append_assoc, List.singleton_append, List.nil_append]
      | content bs b => cases hm
      | quote b => cases hm
      | stop bs => cases hm
    | false =>
      obtain ⟨hdone, hforced, hraw', hdata'⟩ :=
        heed_within (d := d) hm (hstop m List.mem_cons_self) s
      have hspan' : ∀ x ∈ span ++ [m], x.isDivider = false := by
        intro x hx
        rcases List.mem_append.mp hx with hx | hx
        · exact hspan x hx
        · exact List.mem_singleton.mp hx ▸ hm
      rw [ih _ hspan' ?_ ?_ hstop', hdone, hforced, List.append_assoc,
        List.singleton_append]
      · simp [hraw', hraw]
      · cases hs : m.stands? <;> simp [hdata', hdata, hs]

/-- The bytes of the fields, one after another, are the content of the
marks. -/
theorem flatten_fieldsOf (forced : List Bool) (ms : List Mark) :
    ((d.fieldsOf forced ms).map Field.bytes).flatten = ms.filterMap Mark.stands? := by
  have hbytes : (d.fieldsOf forced ms).map Field.bytes
      = (ms.splitOnP Mark.isDivider).map (List.filterMap Mark.stands?) :=
    List.ext_getElem (by simp [fieldsOf]) (by simp [fieldsOf, fieldOf])
  rw [hbytes]
  clear hbytes
  induction ms with
  | nil => rfl
  | cons m ms ih =>
    obtain ⟨span, spans, hspans⟩ := List.exists_cons_of_ne_nil
      (List.splitOnP_ne_nil Mark.isDivider ms)
    rw [hspans] at ih
    have ih' : span.filterMap Mark.stands? ++ (spans.map (List.filterMap Mark.stands?)).flatten
        = ms.filterMap Mark.stands? := ih
    rw [List.splitOnP_cons_eq_if_modifyHead, hspans]
    cases m with
    | divider bs => exact ih'
    | content bs b => exact congrArg (b :: ·) ih'
    | quote b => exact ih'
    | stop bs => exact ih'

/-- **A record has a field for each run of marks between dividers.** -/
theorem split_eq_fieldsOf (hd : d.delimiter ≠ []) (forced : List Bool) (bs : Bytes) :
    split d forced bs = d.fieldsOf forced (d.splitMarks false bs) := by
  rw [split_of_delimiter hd, splitFrom_eq hd, Splitting.after]
  exact fields_foldl_heed _ (fun x (hx : x ∈ ([] : List Mark)) => absurd hx List.not_mem_nil)
    rfl rfl
    fun m hm => isStop_of_mem_splitMarks hm

end Fields

end Dialect
end Intake
