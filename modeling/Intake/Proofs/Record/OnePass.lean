import Intake.Proofs.Record.Pass
import Intake.Proofs.Record.Reading
/-!
# Reading records twice is one pass

A reader of delimited records looks at every byte twice: once to find
the end of the record, with an automaton that knows quotes and nothing
else, and once more to split the record. In an accepted dialect with
quotes that comes to what one pass over the input finds
(`outcomes_eq_one_pass`).

One lemma relates the two automata, mark by mark
(`Front.same_divideFrom`): the scan, led over the bytes of one mark, ends
up inside quotes exactly where the mark says so. That is not obvious byte
by byte, because the scan passes over any byte after an escape and takes
two quotes for the end of one span and the beginning of another.

In a dialect without quotes it is not true: an escape may stand before
the carriage return that is stripped from the end of a record.
-/

namespace Intake
namespace Dialect

/-! ## The scan of a record follows the marks -/

/-- Where the scan stands at the beginning of a mark. -/
def regionOf (quoted : Bool) : Region := if quoted then .quoted else .outside

end Dialect

/-- Two divisions that differ at most in what an input that ends behind
an escape ends in. -/
structure Division.Same (D D' : Division) : Prop where
  closed : D.closed = D'.closed
  tail : D.tail = D'.tail
  isQuoted : D.region.isQuoted = D'.region.isQuoted

namespace Division

theorem Same.refl (D : Division) : Same D D := ⟨rfl, rfl, rfl⟩

theorem Same.trans {D D' D'' : Division} (h : Same D D') (h' : Same D' D'') : Same D D'' :=
  ⟨h.closed.trans h'.closed, h.tail.trans h'.tail, h.isQuoted.trans h'.isQuoted⟩

end Division

namespace Dialect

section Scan

variable {d : Dialect} {quoted : Bool} {m : Mark} {rest bs : Bytes}

/-- Bytes outside quotes that are neither a line end nor a quote nor an
escape leave the scan where it is. -/
theorem divideFrom_outside {xs : Bytes} (h : ∀ b ∈ xs, Region.next d .outside b = some .outside)
    (seen ys : Bytes) :
    d.divideFrom .outside seen (xs ++ ys) = d.divideFrom .outside (seen ++ xs) ys := by
  induction xs generalizing seen with
  | nil => simp
  | cons b xs ih =>
    rw [List.cons_append, divideFrom_next d (h b List.mem_cons_self),
      ih fun c hc => h c (List.mem_cons_of_mem _ hc), List.append_assoc, List.singleton_append]

theorem ne_lineFeed_of_stopAt {b : UInt8} (h : false = true ∨ stopAt (b :: rest) = []) :
    b ≠ Csv.lineFeed := by
  rintro rfl
  rcases h with h | h
  · cases h
  · simp [stopAt] at h

/-- **The scan, led over the bytes of a mark, is within quotes after it
exactly if the mark says so.** -/
theorem Front.same_divideFrom (h : d.Front quoted m rest bs) (hd : d.Usable)
    (hgoes : quoted = true ∨ stopAt bs = []) (seen : Bytes) :
    (d.divideFrom (regionOf quoted) seen bs).Same
      (d.divideFrom (regionOf (m.turn quoted)) (seen ++ m.read) rest) := by
  cases h with
  | @escaped b c rest isEscape literal =>
    show Division.Same (d.divideFrom .quoted seen (b :: c :: rest))
      (d.divideFrom .quoted (seen ++ [b, c]) rest)
    rw [divideFrom_next d (next_quotedEscape isEscape),
      divideFrom_next d (next_behind_quotedEscape c), List.append_assoc]
    exact .refl _
  | @doubled b rest isQuote alone =>
    -- for the scan the first of the two quotes ends a span and the second begins one
    show Division.Same (d.divideFrom .quoted seen (b :: b :: rest))
      (d.divideFrom .quoted (seen ++ [b, b]) rest)
    rw [divideFrom_next d (next_closing isQuote), divideFrom_next d (next_opening hd isQuote),
      List.append_assoc]
    exact .refl _
  | @closing b rest isQuote single =>
    show Division.Same (d.divideFrom .quoted seen (b :: rest))
      (d.divideFrom .outside (seen ++ [b]) rest)
    rw [divideFrom_next d (next_closing isQuote)]
    exact .refl _
  | @quoted b rest noQuote noEscape =>
    show Division.Same (d.divideFrom .quoted seen (b :: rest))
      (d.divideFrom .quoted (seen ++ [b]) rest)
    by_cases he : some b = d.quotedEscape
    · -- the scan passes over the byte after the escape, which is no quote and no escape
      rw [divideFrom_next d (next_quotedEscape he)]
      cases rest with
      | nil => exact ⟨rfl, rfl, rfl⟩
      | cons c rest =>
        obtain ⟨hcq, hce⟩ := noEscape he c rfl
        rw [divideFrom_next d (next_behind_quotedEscape c), divideFrom_next d (next_quoted hcq hce)]
        exact .refl _
    · rw [divideFrom_next d (next_quoted noQuote he)]
      exact .refl _
  | divider some_delimiter =>
    show Division.Same (d.divideFrom .outside seen (d.delimiter ++ rest))
      (d.divideFrom .outside (seen ++ d.delimiter) rest)
    rw [divideFrom_outside fun b hb => next_delimiter hd hb]
    exact .refl _
  | @opening b rest noDivider isQuote =>
    show Division.Same (d.divideFrom .outside seen (b :: rest))
      (d.divideFrom .quoted (seen ++ [b]) rest)
    rw [divideFrom_next d (next_opening hd isQuote)]
    exact .refl _
  | @pair b c rest noDivider noQuote isEscape =>
    have hb := next_escaped (ne_lineFeed_of_stopAt hgoes) noQuote isEscape
    show Division.Same (d.divideFrom .outside seen (b :: c :: rest))
      (d.divideFrom .outside (seen ++ [b, c]) rest)
    rw [divideFrom_next d hb, divideFrom_next d (next_behind_escaped c), List.append_assoc]
    exact .refl _
  | @plain b rest noDivider noQuote noEscape =>
    show Division.Same (d.divideFrom .outside seen (b :: rest))
      (d.divideFrom .outside (seen ++ [b]) rest)
    by_cases he : some b = d.plainEscape
    · -- an escape that the input ends with
      obtain rfl := noEscape he
      rw [divideFrom_next d (next_escaped (ne_lineFeed_of_stopAt hgoes) noQuote he)]
      exact ⟨rfl, rfl, rfl⟩
    · rw [divideFrom_next d (next_outside (ne_lineFeed_of_stopAt hgoes) noQuote he)]
      exact .refl _

theorem Run.same_divideFrom {last : Bool} {ms : List Mark} (h : d.Run quoted ms last rest bs)
    (hd : d.Usable) (seen : Bytes) :
    (d.divideFrom (regionOf quoted) seen bs).Same
      (d.divideFrom (regionOf last) (seen ++ ms.flatMap Mark.read) rest) := by
  induction h generalizing seen with
  | nil =>
    rw [List.flatMap_nil, List.append_nil]
    exact .refl _
  | cons front goes run ih =>
    rw [List.flatMap_cons, ← List.append_assoc]
    exact (front.same_divideFrom hd goes seen).trans (ih _)

end Scan

/-! ## The end of a record -/

/-- What can end a record. -/
theorem stopAt_cases {bs : Bytes} (h : stopAt bs ≠ []) :
    (∃ rest, bs = Csv.lineFeed :: rest ∧ stopAt bs = [Csv.lineFeed]) ∨
      (∃ rest, bs = Csv.carriageReturn :: Csv.lineFeed :: rest ∧
        stopAt bs = [Csv.carriageReturn, Csv.lineFeed]) ∨
      bs = [Csv.carriageReturn] ∧ stopAt bs = [Csv.carriageReturn] := by
  cases bs with
  | nil => exact absurd rfl h
  | cons b rest =>
    simp only [stopAt] at h ⊢
    by_cases hb : b = Csv.lineFeed
    · exact .inl ⟨rest, by rw [hb], by rw [if_pos hb, hb]⟩
    · rw [if_neg hb] at h ⊢
      split at h
      · next hc =>
        rw [if_pos hc]
        obtain ⟨rfl, rfl | hhead⟩ := hc
        · exact .inr (.inr ⟨rfl, rfl⟩)
        · obtain ⟨tail, rfl⟩ := List.head?_eq_some_iff.mp hhead
          exact .inr (.inl ⟨tail, rfl, rfl⟩)
      · exact absurd rfl h

/-- Outside quotes no carriage return stands directly before the bytes
that end a record: it would be one of them. -/
theorem Run.getLast?_ne {d : Dialect} (hd : d.Usable) (hplain : d.plainEscape = none)
    {quoted : Bool} {ms : List Mark} {rest bs : Bytes} (h : d.Run quoted ms false rest bs)
    (hrest : rest = [] ∨ rest.head? = some Csv.lineFeed) :
    (ms.flatMap Mark.read).getLast? ≠ some Csv.carriageReturn := by
  generalize hlast : false = last at h
  induction h with
  | nil => simp
  | @cons quoted last m ms rest mid bs front goes run ih =>
    have ih := ih hrest hlast
    rw [List.flatMap_cons, List.getLast?_append]
    cases htail : (ms.flatMap Mark.read).getLast? with
    | some c =>
      rw [htail] at ih
      exact ih
    | none =>
      have hnil : ms.flatMap Mark.read = [] := List.getLast?_eq_none_iff.mp htail
      have hmid : mid = rest := by rw [← run.read_append, hnil, List.nil_append]
      have hturn : m.turn quoted = false := by
        have hturns := run.foldl_turn
        cases ms with
        | nil => exact hturns.trans hlast.symm
        | cons m' ms =>
          cases run with
          | cons front' _ _ =>
            rw [List.flatMap_cons, List.append_eq_nil_iff] at hnil
            exact absurd hnil.1 front'.read_ne_nil
      subst hmid
      rw [Option.none_or]
      intro hreturn
      cases front with
      | escaped => cases hturn
      | doubled => cases hturn
      | closing isQuote =>
        exact (hd.quote_end _ isQuote).2 (Option.some.inj hreturn)
      | quoted => cases hturn
      | divider =>
        exact (hd.delimiter_end _ (List.mem_of_getLast? hreturn)).2 rfl
      | opening _ isQuote =>
        exact (hd.quote_end _ isQuote).2 (Option.some.inj hreturn)
      | pair _ _ isEscape => cases isEscape.trans hplain
      | @plain b =>
        obtain rfl : b = Csv.carriageReturn := Option.some.inj hreturn
        rcases goes with hq | hs
        · cases hq
        · rw [stopAt, if_neg (by decide), if_pos ⟨rfl, hrest⟩] at hs
          cases hs

/-! ## A pass is the division of the input -/

/-- The marks of a whole record: the splitter finds them in its bytes, its
fields are theirs, and they leave off outside quotes. -/
structure Marked (d : Dialect) (forced : List Bool) (ms : List Mark) (x : Record) : Prop where
  splitMarks_eq : d.splitMarks false (stripEnd x.raw) = ms
  fields_eq : x.fields = d.fieldsOf forced ms
  closed : ms.foldl Mark.turn false = false

/-- What the end of a record comes to: its marks are those of its bytes. -/
theorem Run.marked {d : Dialect} {ms : List Mark} {rest bs : Bytes}
    (h : d.Run false ms false rest bs) (forced : List Bool) (number : Nat) {stop : Bytes}
    (hstrip : stripEnd (ms.flatMap Mark.read ++ completed stop) = ms.flatMap Mark.read) :
    d.Marked forced ms (d.recordOf forced number ms stop) := by
  refine ⟨?_, rfl, h.foldl_turn⟩
  show d.splitMarks false (stripEnd (ms.flatMap Mark.read ++ completed stop)) = ms
  rw [hstrip, h.splitMarks_eq]

end Dialect

/-- What the records and the tail of a division come to. -/
def Division.transcript (d : Dialect) (forced : List Bool) (count : Nat) (D : Division) :
    Transcript :=
  { records := (D.whole.zipIdx (count + 1)).map (record d forced)
    unclosed := if D.region.isQuoted then some D.tail else none }

namespace Division

variable (d : Dialect) (forced : List Bool) (count : Nat)

theorem Same.transcript_eq {D D' : Division} (h : Same D D') :
    D.transcript d forced count = D'.transcript d forced count := by
  obtain ⟨closed, tail, region⟩ := D
  obtain ⟨closed', tail', region'⟩ := D'
  obtain ⟨rfl, rfl, hquoted⟩ := h
  simp only [transcript, whole, segments, completion] at hquoted ⊢
  rw [hquoted]

theorem transcript_cons (s : Bytes) (closed : List Bytes) (tail : Bytes) (region : Region) :
    transcript d forced count ⟨s :: closed, tail, region⟩
      = (transcript d forced (count + 1) ⟨closed, tail, region⟩).cons
          (record d forced (s, count + 1)) := by
  cases region <;> rfl

end Division

namespace Dialect

/-- The record that marks and an end make is the one that the splitter
makes of their bytes. -/
theorem Marked.record_eq {d : Dialect} (hd : d.delimiter ≠ []) {ms : List Mark}
    {forced : List Bool} {number : Nat} {stop : Bytes} (h : d.Marked forced ms (d.recordOf forced number ms stop)) :
    Division.record d forced (ms.flatMap Mark.read ++ completed stop, number)
      = d.recordOf forced number ms stop := by
  have hfields := split_eq_fieldsOf hd forced (stripEnd (ms.flatMap Mark.read ++ completed stop))
  rw [show d.splitMarks false (stripEnd (ms.flatMap Mark.read ++ completed stop)) = ms
    from h.splitMarks_eq] at hfields
  simp only [Division.record, recordOf, hfields]

section Pass

variable {d : Dialect} {forced : List Bool} {count : Nat} {ms : List Mark} {bs : Bytes}

/-- A record that the input ends without a line feed after. -/
theorem transcript_tail (hd : d.Usable)
    (hmarked : d.Marked forced ms (d.recordOf forced (count + 1) ms bs))
    (hcompleted : completed bs = bs ++ [Csv.lineFeed])
    (hne : ms.flatMap Mark.read ++ bs ≠ []) :
    Division.transcript d forced count ⟨[], ms.flatMap Mark.read ++ bs, .outside⟩
      = { records := [d.recordOf forced (count + 1) ms bs], unclosed := none } := by
  rw [← hmarked.record_eq hd.some_delimiter, hcompleted, ← List.append_assoc]
  simp [Division.transcript, Division.whole, Division.segments, Division.completion,
    Region.isQuoted, hne]

variable (hd : d.Usable) (hplain : d.plainEscape = none)

include hd hplain

/-- The input ends where a run of marks does. -/
theorem Run.transcript_end {last : Bool} (h : d.Run false ms last [] bs) :
    d.transcribeFrom forced count last ms []
        = (d.divideFrom (regionOf last) (ms.flatMap Mark.read) []).transcript d forced count ∧
      ∀ x ∈ (d.transcribeFrom forced count last ms []).records, ∃ ms, d.Marked forced ms x := by
  rw [transcribeFrom]
  cases last with
  | true => exact ⟨rfl, fun x hx => absurd hx List.not_mem_nil⟩
  | false =>
    rw [if_neg Bool.false_ne_true]
    cases ms with
    | nil => exact ⟨rfl, fun x hx => absurd hx List.not_mem_nil⟩
    | cons m ms =>
      have hlast := h.getLast?_ne hd hplain (.inl rfl)
      have hmarked : d.Marked forced (m :: ms) (d.recordOf forced (count + 1) (m :: ms) []) :=
        h.marked forced (count + 1) (stripEnd_lineFeed hlast)
      have hne : (m :: ms).flatMap Mark.read ++ [] ≠ [] := by
        cases h with
        | cons front _ _ => simp [front.read_ne_nil]
      have htail := transcript_tail hd hmarked rfl hne
      rw [List.append_nil] at htail
      rw [if_neg (List.cons_ne_nil _ _)]
      refine ⟨htail.symm, fun x hx => ⟨m :: ms, ?_⟩⟩
      rw [List.mem_singleton.mp hx]
      exact hmarked

/-- A record ends after a run of marks, with a line feed or at a carriage
return that is the last byte of the input. -/
theorem Run.transcript_stop {rest : Bytes} (h : d.Run false ms false rest bs)
    (hstop : stopAt rest ≠ [])
    (hnext : ∀ after, after.length < rest.length →
      d.transcribeFrom forced (count + 1) false [] after
          = (d.divide after).transcript d forced (count + 1) ∧
        ∀ x ∈ (d.transcribeFrom forced (count + 1) false [] after).records,
          ∃ ms, d.Marked forced ms x) :
    d.transcribeFrom forced count false ms rest
        = (d.divideFrom .outside (ms.flatMap Mark.read) rest).transcript d forced count ∧
      ∀ x ∈ (d.transcribeFrom forced count false ms rest).records, ∃ ms, d.Marked forced ms x := by
  have hmarked : d.Marked forced ms (d.recordOf forced (count + 1) ms (stopAt rest)) := by
    rcases stopAt_cases hstop with ⟨after, rfl, hs⟩ | ⟨after, rfl, hs⟩ | ⟨rfl, hs⟩ <;> rw [hs]
    · exact h.marked forced _ (stripEnd_lineFeed (h.getLast?_ne hd hplain (.inr rfl)))
    · exact h.marked forced _ (stripEnd_return _)
    · exact h.marked forced _ (stripEnd_return _)
  have hpass : d.transcribeFrom forced count false ms rest
      = (d.transcribeFrom forced (count + 1) false [] (rest.drop (stopAt rest).length)).cons
          (d.recordOf forced (count + 1) ms (stopAt rest)) := by
    cases rest with
    | nil => exact absurd rfl hstop
    | cons b tail => exact transcribeFrom_stop hstop
  have hless : (rest.drop (stopAt rest).length).length < rest.length := by
    have hpos := List.length_pos_iff.mpr hstop
    have hrest : rest ≠ [] := by
      rintro rfl
      exact hstop rfl
    have := List.length_pos_iff.mpr hrest
    rw [List.length_drop]
    omega
  obtain ⟨heq, hmem⟩ := hnext _ hless
  rw [hpass]
  refine ⟨?_, fun x hx => ?_⟩
  · rw [heq, ← hmarked.record_eq hd.some_delimiter]
    rcases stopAt_cases hstop with ⟨after, rfl, hs⟩ | ⟨after, rfl, hs⟩ | ⟨rfl, hs⟩ <;> rw [hs]
    · rw [divideFrom_end d (by simp [Region.next])]
      exact (Division.transcript_cons ..).symm
    · rw [divideFrom_next d (next_return hd), divideFrom_end d (by simp [Region.next]),
        List.append_assoc]
      exact (Division.transcript_cons ..).symm
    · rw [divideFrom_next d (next_return hd)]
      rw [hs] at hmarked
      have htail := transcript_tail hd hmarked rfl (by simp)
      rw [hmarked.record_eq hd.some_delimiter]
      exact htail.symm
  · rcases List.mem_cons.mp hx with rfl | hx
    · exact ⟨ms, hmarked⟩
    · exact hmem x hx

/-- **One pass over an input finds what dividing it first and splitting
its parts afterwards does**, and each of its records has the marks that
the splitter finds. -/
theorem transcribeFrom_eq_transcript (input : Bytes) :
    d.transcribeFrom forced count false [] input = (d.divide input).transcript d forced count ∧
      ∀ x ∈ (d.transcribeFrom forced count false [] input).records, ∃ ms, d.Marked forced ms x := by
  induction hk : input.length using Nat.strongRecOn generalizing count input with
  | ind k ih =>
    obtain ⟨ms, last, rest, hrun, hend⟩ := d.exists_run false input
    have hsame := (hrun.same_divideFrom hd []).transcript_eq d forced count
    rw [List.nil_append] at hsame
    rw [hrun.transcribeFrom_eq, List.nil_append]
    unfold divide
    show _ = (d.divideFrom (regionOf false) [] input).transcript d forced count ∧ _
    rw [hsame]
    rcases hend with rfl | ⟨rfl, hstop⟩
    · exact hrun.transcript_end hd hplain
    · refine hrun.transcript_stop hd hplain hstop fun after hafter => ih _ ?_ _ rfl
      have hlen := congrArg List.length hrun.read_append
      rw [List.length_append] at hlen
      omega

end Pass

end Dialect

/-! ## Outcomes -/

namespace Transcript

variable {limit count : Nat} {x : Record}

theorem outcomes_cons (hx : x.raw.length < limit) (T : Transcript) :
    (T.cons x).outcomes limit count = .ok (some x) :: T.outcomes limit (count + 1) := by
  simp only [outcomes, cons, stop, List.takeWhile_cons, hx, decide_true, if_true, List.map_cons,
    List.length_cons, Nat.add_lt_add_iff_right, Nat.add_assoc, Nat.add_comm 1, List.cons_append]

theorem outcomes_cons_long (hx : limit ≤ x.raw.length) (T : Transcript) :
    (T.cons x).outcomes limit count = [.error (.recordTooLarge (count + 1) limit)] := by
  have hx' : ¬ x.raw.length < limit := by omega
  simp [outcomes, cons, stop, hx']

end Transcript

namespace Division

/-- A division has the outcomes of its transcript. -/
theorem outcomes_eq_transcript (d : Dialect) (forced : List Bool) (limit count : Nat) (D : Division)
    (hquoted : D.region.isQuoted = true → D.tail ≠ []) :
    D.outcomes d forced limit count = (D.transcript d forced count).outcomes limit count := by
  obtain ⟨closed, tail, region⟩ := D
  induction closed generalizing count with
  | nil =>
    by_cases ht : tail = []
    · have hregion : region.isQuoted = false := by simpa [ht] using hquoted
      simp [outcomes, records, stop, Transcript.outcomes, Transcript.stop, transcript, whole,
        segments, ht, hregion]
    · by_cases hl : tail.length + 1 < limit
      · cases hregion : region.isQuoted with
        | true =>
          rw [outcomes_tail_quoted d forced limit count ht hl hregion]
          simp [Transcript.outcomes, Transcript.stop, transcript, whole, hregion, hl]
        | false =>
          rw [outcomes_tail d forced limit count ht hl hregion]
          simp [Transcript.outcomes, Transcript.stop, transcript, whole, segments, completion,
            record, hregion, hl, ht]
      · rw [outcomes_tail_long d forced limit count ht (by omega)]
        cases hregion : region.isQuoted <;>
          simp [Transcript.outcomes, Transcript.stop, transcript, whole, segments, completion,
            record, hregion, hl, ht]
  | cons s closed ih =>
    rw [transcript_cons]
    by_cases hs : s.length < limit
    · rw [outcomes_cons d forced limit count hs, ih (count + 1) hquoted,
        Transcript.outcomes_cons (x := record d forced (s, count + 1)) hs]
    · have hs' : limit ≤ s.length := by omega
      rw [outcomes_cons_long d forced limit count hs',
        Transcript.outcomes_cons_long (x := record d forced (s, count + 1)) hs']

end Division

/-- An input that ends within quotes ends within a record. -/
theorem Dialect.tail_ne_nil (d : Dialect) {region : Region} {seen : Bytes}
    (h : region.isQuoted = true → seen ≠ []) (bs : Bytes) :
    (d.divideFrom region seen bs).region.isQuoted = true →
      (d.divideFrom region seen bs).tail ≠ [] := by
  induction bs generalizing region seen with
  | nil => exact h
  | cons b bs ih =>
    cases hnext : region.next d b with
    | none =>
      rw [divideFrom_end d hnext]
      exact @ih .outside [] nofun
    | some next =>
      rw [divideFrom_next d hnext]
      exact ih fun _ => by simp

namespace DelimitedReader

/-- The outcomes of a reader are those of one pass over the input, in an
accepted dialect in which nothing is escaped outside quotes. -/
theorem outcomes_eq_transcribe {d : Dialect} (hd : d.Usable) (hplain : d.plainEscape = none)
    (input : Bytes) (cuts : List Cut) (forced : List Bool) (size limit n : Nat) :
    DelimitedReader.outcomes
        { source := { rest := input, cuts := cuts }, buffer := .ofSizes size limit,
          dialect := d, forced := forced } n
      = ((d.transcribe forced input).outcomes (max 2 (max size limit)) 0).take n := by
  have hready := ready_start input cuts d forced size limit
  have hpass : d.transcribeFrom forced 0 false [] input = (d.divide input).transcript d forced 0 :=
    (Dialect.transcribeFrom_eq_transcript hd hplain input).1
  have htail : (d.divide input).region.isQuoted = true → (d.divide input).tail ≠ [] :=
    @Dialect.tail_ne_nil d .outside [] nofun input
  rw [outcomes_eq_expected hready, Dialect.transcribe, hpass,
    ← Division.outcomes_eq_transcript d forced _ _ _ htail]
  show ((d.divide ([] ++ input)).outcomes d forced (Buffer.ofSizes size limit).max 0).take n = _
  rw [Buffer.max_ofSizes, List.nil_append]

/-- **A reader that finds the end of a record first and then splits it
delivers what one pass over the input does**, in every accepted dialect
with quotes, however the source cuts its reads: the same records up to
the first that does not fit, with the same bytes, fields and NULLs, and
the same end. The splitter never leaves off within quotes, and what it
takes for content is the fields' bytes, one field after another. -/
theorem outcomes_eq_one_pass {d : Dialect} {q : UInt8} (hd : d.check = .ok ())
    (hq : d.quote = some q) (input : Bytes) (cuts : List Cut) (forced : List Bool)
    (size limit n : Nat) :
    let reader : DelimitedReader :=
      { source := { rest := input, cuts := cuts }, buffer := .ofSizes size limit,
        dialect := d, forced := forced }
    let T := d.transcribe forced input
    reader.outcomes n = (T.outcomes (max 2 (max size limit)) 0).take n ∧
      ∀ x ∈ T.records,
        let splitting := Splitting.after d { forced := forced } (stripEnd x.raw)
        x.fields = splitting.fields d ∧ splitting.quoted = false ∧
          (x.fields.map Field.bytes).flatten
            = (d.splitMarks false (stripEnd x.raw)).filterMap Dialect.Mark.stands? := by
  intro reader T
  have husable := Dialect.usable_of_check hd
  have hplain := Dialect.plainEscape_eq_none hq
  refine ⟨outcomes_eq_transcribe husable hplain input cuts forced size limit n, fun x hx => ?_⟩
  obtain ⟨ms, hmarked⟩ := (Dialect.transcribeFrom_eq_transcript husable hplain input).2 x hx
  have hmarks := hmarked.splitMarks_eq
  refine ⟨?_, ?_, ?_⟩
  · rw [hmarked.fields_eq, ← hmarks, ← Dialect.split_eq_fieldsOf husable.some_delimiter]
    rw [split_of_delimiter husable.some_delimiter]
    exact Dialect.splitFrom_eq husable.some_delimiter { forced := forced } (stripEnd x.raw)
  · rw [Dialect.quoted_after, hmarks]
    exact hmarked.closed
  · rw [hmarked.fields_eq, Dialect.flatten_fieldsOf, hmarks]

/-- A record over two lines, with a quote, a delimiter and a carriage
return within quotes, and a second one that the input ends within quotes
of. The reads fall between two quotes and within a line end. -/
theorem outcomes_eq_one_pass_lines :
    Dialect.csv.check = .ok () ∧ Dialect.csv.quote = some 0x22 ∧
      (Dialect.csv.transcribe [] (Bytes.ascii "a,\"b\"\"\n,\r\",\r\n\"c\n")).outcomes 64 0
        = [.ok (some ⟨1, Bytes.ascii "a,\"b\"\"\n,\r\",\r\n",
            [⟨Bytes.ascii "a", false⟩, ⟨Bytes.ascii "b\"\n,\r", false⟩, ⟨[], true⟩], none⟩),
          .error (.unterminatedQuote 2)] ∧
      DelimitedReader.outcomes
          { source :=
              { rest := Bytes.ascii "a,\"b\"\"\n,\r\",\r\n\"c\n"
                cuts := [.atMost 5, .interrupted, .atMost 7, .atMost 1] }
            buffer := .ofSizes 4 64, dialect := .csv, forced := [] } 5
        = ((Dialect.csv.transcribe [] (Bytes.ascii "a,\"b\"\"\n,\r\",\r\n\"c\n")).outcomes
            64 0).take 5 :=
  ⟨rfl, rfl, by with_unfolding_all rfl, (outcomes_eq_one_pass rfl rfl _ _ _ _ _ _).1⟩

end DelimitedReader

end Intake
