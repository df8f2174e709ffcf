import Intake.Proofs.Record.Marks
/-!
# One pass over a delimited input

`Dialect.transcribe` goes over an input from left to right and looks at
each byte once. It knows whether it is within quotes, and takes what
stands at the front for the end of the record, the delimiter, a quote or
content; it never returns to a byte and is never told where a record
ends. A `Transcript` is what it finds: the records, and the bytes of one
that the input ends within quotes of.

The marks up to the end of a record are a `Run`, for every input has one
(`exists_run`). The splitter, given nothing but the bytes of a run, finds
the same marks (`Run.splitMarks_eq`).
-/

namespace Intake

namespace Dialect

/-! ## The automaton -/

/-- The bytes that end a record here, outside quotes: a line feed with a
carriage return directly before it, if there is one, or a carriage
return that the input ends with. None if the record goes on. -/
def stopAt : Bytes → Bytes
  | [] => []
  | b :: rest =>
    if b = Csv.lineFeed then [b]
    else if b = Csv.carriageReturn ∧ (rest = [] ∨ rest.head? = some Csv.lineFeed) then
      b :: rest.take 1
    else []

/-- What stands at the front of an input. -/
def inputMark (d : Dialect) (quoted : Bool) (b : UInt8) (rest : Bytes) : Mark :=
  if quoted = false ∧ stopAt (b :: rest) ≠ [] then .stop (stopAt (b :: rest))
  else d.bodyMark quoted b rest

/-- The line feed that ends a record, with what stands before it: it is
added where the input ends without one. -/
def completed (stop : Bytes) : Bytes :=
  if stop.getLast? = some Csv.lineFeed then stop else stop ++ [Csv.lineFeed]

/-- The record of some marks and the bytes that end it. -/
def recordOf (d : Dialect) (forced : List Bool) (number : Nat) (ms : List Mark) (stop : Bytes) :
    Record :=
  { number := number
    raw := ms.flatMap Mark.read ++ completed stop
    fields := d.fieldsOf forced ms }

end Dialect

/-- What a pass over an input has found. -/
structure Transcript where
  records : List Record
  /-- The bytes of a record that the input ends within quotes of. -/
  unclosed : Option Bytes
  deriving DecidableEq, Repr

namespace Transcript

/-- A transcript with one more record in front. -/
def cons (x : Record) (T : Transcript) : Transcript := { T with records := x :: T.records }

/-- How reading ends for a reader that holds no more than `limit` bytes. -/
def stop (limit count : Nat) (T : Transcript) : Except LoadError (Option Record) :=
  let fitting := (T.records.takeWhile (·.raw.length < limit)).length
  if fitting < T.records.length then .error (.recordTooLarge (count + fitting + 1) limit)
  else
    match T.unclosed with
    | none => .ok none
    | some bs =>
      if bs.length + 1 < limit then .error (.unterminatedQuote (count + T.records.length + 1))
      else .error (.recordTooLarge (count + T.records.length + 1) limit)

/-- The outcomes of reading to the end, or to the first failure: the
records before the first one of `limit` bytes or more, and why there are
no others. -/
def outcomes (limit count : Nat) (T : Transcript) : List (Except LoadError (Option Record)) :=
  (T.records.takeWhile (·.raw.length < limit)).map (fun x => .ok (some x)) ++ [T.stop limit count]

end Transcript

namespace Dialect

theorem read_inputMark_ne (d : Dialect) (quoted : Bool) (b : UInt8) (rest : Bytes) :
    (d.inputMark quoted b rest).read ≠ [] := by
  unfold inputMark
  split
  · next h => exact h.2
  · exact (d.front_bodyMark quoted b rest).read_ne_nil

/-- Goes over an input, `count` records of which are complete; `seen` are
the marks of the record that it is in. -/
def transcribeFrom (d : Dialect) (forced : List Bool) (count : Nat) (quoted : Bool)
    (seen : List Mark) : Bytes → Transcript
  | [] =>
    if quoted then { records := [], unclosed := some (seen.flatMap Mark.read) }
    else if seen = [] then { records := [], unclosed := none }
    else { records := [d.recordOf forced (count + 1) seen []], unclosed := none }
  | b :: rest =>
    if (d.inputMark quoted b rest).isStop then
      (transcribeFrom d forced (count + 1) false []
        ((b :: rest).drop (d.inputMark quoted b rest).read.length)).cons
          (d.recordOf forced (count + 1) seen (d.inputMark quoted b rest).read)
    else
      transcribeFrom d forced count ((d.inputMark quoted b rest).turn quoted)
        (seen ++ [d.inputMark quoted b rest])
        ((b :: rest).drop (d.inputMark quoted b rest).read.length)
termination_by bs => bs.length
decreasing_by
  all_goals
    have hpos := List.length_pos_iff.mpr (d.read_inputMark_ne quoted b rest)
    simp only [List.length_drop, List.length_cons]
    omega

/-- Goes over a whole input. -/
def transcribe (d : Dialect) (forced : List Bool) (input : Bytes) : Transcript :=
  d.transcribeFrom forced 0 false [] input

section Steps

variable {d : Dialect} {forced : List Bool} {count : Nat} {quoted : Bool} {seen : List Mark}

/-- Before the end of a record the marks are those of the splitter. -/
theorem Front.transcribeFrom_eq {m : Mark} {rest bs : Bytes} (h : d.Front quoted m rest bs)
    (hgoes : quoted = true ∨ stopAt bs = []) :
    d.transcribeFrom forced count quoted seen bs
      = d.transcribeFrom forced count (m.turn quoted) (seen ++ [m]) rest := by
  obtain ⟨b, tail, rfl, hm, hrest⟩ := h.eq_bodyMark
  have hinput : d.inputMark quoted b tail = m := by
    rw [inputMark, if_neg, hm]
    rintro ⟨hq, hs⟩
    rcases hgoes with hq' | hs'
    · rw [hq] at hq'
      cases hq'
    · exact hs hs'
  rw [transcribeFrom, hinput, h.isStop_eq, if_neg Bool.false_ne_true, ← hrest]

/-- The end of a record. -/
theorem transcribeFrom_stop {b : UInt8} {tail : Bytes} (h : stopAt (b :: tail) ≠ []) :
    d.transcribeFrom forced count false seen (b :: tail)
      = (d.transcribeFrom forced (count + 1) false []
          ((b :: tail).drop (stopAt (b :: tail)).length)).cons
            (d.recordOf forced (count + 1) seen (stopAt (b :: tail))) := by
  have hinput : d.inputMark false b tail = .stop (stopAt (b :: tail)) := if_pos ⟨rfl, h⟩
  rw [transcribeFrom, hinput]
  rfl

end Steps

/-! ## The marks of one record -/

/-- The marks up to the end of a record, or of the input, with whether
they leave off within quotes and what they leave. -/
inductive Run (d : Dialect) : Bool → List Mark → Bool → Bytes → Bytes → Prop where
  | nil {quoted : Bool} {bs : Bytes} : Run d quoted [] quoted bs bs
  | cons {quoted last : Bool} {m : Mark} {ms : List Mark} {rest mid bs : Bytes}
      (front : d.Front quoted m mid bs) (goes : quoted = true ∨ stopAt bs = [])
      (run : Run d (m.turn quoted) ms last rest mid) : Run d quoted (m :: ms) last rest bs

/-- Every input has marks up to an end. -/
theorem exists_run (d : Dialect) (quoted : Bool) (bs : Bytes) :
    ∃ ms last rest, d.Run quoted ms last rest bs ∧
      (rest = [] ∨ last = false ∧ stopAt rest ≠ []) := by
  induction quoted, bs using markwise (d := d) with
  | nil quoted => exact ⟨[], quoted, [], .nil, .inl rfl⟩
  | mark quoted m rest bs hfront ih =>
    by_cases hgoes : quoted = true ∨ stopAt bs = []
    · obtain ⟨ms, last, rest', hrun, hend⟩ := ih
      exact ⟨_, last, rest', .cons hfront hgoes hrun, hend⟩
    · simp only [not_or, Bool.not_eq_true] at hgoes
      exact ⟨[], quoted, bs, .nil, .inr hgoes⟩

namespace Run

variable {d : Dialect} {quoted last : Bool} {ms : List Mark} {rest bs : Bytes}

theorem read_append (h : d.Run quoted ms last rest bs) : ms.flatMap Mark.read ++ rest = bs := by
  induction h with
  | nil => rfl
  | cons front goes run ih => rw [List.flatMap_cons, List.append_assoc, ih, front.read_append]

theorem foldl_turn (h : d.Run quoted ms last rest bs) : ms.foldl Mark.turn quoted = last := by
  induction h with
  | nil => rfl
  | cons front goes run ih => rw [List.foldl_cons, ih]

/-- The pass goes over the bytes of the marks. -/
theorem transcribeFrom_eq (h : d.Run quoted ms last rest bs) (forced : List Bool) (count : Nat)
    (seen : List Mark) : d.transcribeFrom forced count quoted seen bs
      = d.transcribeFrom forced count last (seen ++ ms) rest := by
  induction h generalizing seen with
  | nil => rw [List.append_nil]
  | cons front goes run ih =>
    rw [front.transcribeFrom_eq goes, ih, List.append_assoc, List.singleton_append]

end Run

/-- A mark is the same where fewer bytes follow it. -/
theorem Front.cut {d : Dialect} {quoted : Bool} {m : Mark} {xs ys bs : Bytes}
    (h : d.Front quoted m (xs ++ ys) bs) : d.Front quoted m xs (m.read ++ xs) := by
  have hshort : ∀ {b : UInt8}, (d.delimiter ≠ [] → ¬ d.delimiter <+: b :: (xs ++ ys)) →
      d.delimiter ≠ [] → ¬ d.delimiter <+: b :: xs :=
    fun hno hne hp => hno hne (hp.trans ⟨ys, rfl⟩)
  have hhead : ∀ c, c ∈ xs.head? → c ∈ (xs ++ ys).head? := by
    intro c hc
    obtain ⟨tail, rfl⟩ := List.head?_eq_some_iff.mp hc
    rfl
  cases h with
  | escaped isEscape literal => exact .escaped isEscape literal
  | doubled isQuote alone => exact .doubled isQuote alone
  | closing isQuote single => exact .closing isQuote fun hn hc => single hn (hhead _ hc)
  | quoted noQuote noEscape =>
    exact .quoted noQuote fun he c hc => noEscape he c (hhead c hc)
  | divider some_delimiter => exact .divider some_delimiter
  | opening noDivider isQuote => exact .opening (hshort noDivider) isQuote
  | pair noDivider noQuote isEscape =>
    exact .pair (fun hne hp => noDivider hne (hp.trans ⟨ys, rfl⟩)) noQuote isEscape
  | plain noDivider noQuote noEscape =>
    exact .plain (hshort noDivider) noQuote fun he => (List.append_eq_nil_iff.mp (noEscape he)).1

/-- The splitter, given the bytes of the marks alone, finds the marks. -/
theorem Run.splitMarks_eq {d : Dialect} {quoted last : Bool} {ms : List Mark} {rest bs : Bytes}
    (h : d.Run quoted ms last rest bs) : d.splitMarks quoted (ms.flatMap Mark.read) = ms := by
  induction h with
  | nil => exact d.splitMarks_nil _
  | @cons quoted last m ms rest mid bs front goes run ih =>
    rw [← run.read_append] at front
    rw [List.flatMap_cons, front.cut.splitMarks_eq, ih]

end Dialect
end Intake
