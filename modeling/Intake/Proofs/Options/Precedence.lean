import Mathlib.Data.List.Basic
import Intake.CommandLine.Program
/-!
# Which of several settings counts

Options are given as pairs, those of a control file before those of the
command line, and a key may be given more than once. Columns and their
flags add up. Of every other key the last setting counts, as if the ones
before it had not been given (`Options.ofPairs_override`): the options are
the same without them, or it is the same error.

That a setting takes the place of an earlier one of its key is seen at
once; but others stand between the two. Each key has a slot in the draft,
perhaps one that it shares (`Key.slot`), and what a pair does to the other
slots does not depend on what is in that one (`Draft.setAll_alike`). So the
drafts with and without the earlier setting stay the same but for the slot,
and the later setting fills it.

One key fills its slot with one of its values only: the one that asks for
the parallel writer, or does not ask for it. What it asked for before is not
revoked then (`Options.Unrevoked`), unless something else asks for a
writer.
-/

namespace Intake

/-! ## Keys and their slots -/

namespace Key

/-- The key of a name as it stands in a pair. -/
def named? (name : String) : Option Key := ofName? (Text.upper (Text.trim name))

/-- Whether a value is one of the key's. -/
def admits (k : Key) (value : String) : Bool := (({} : Draft).set? k value).isSome

/-- The key that has the slot of a draft that a key fills. -/
def slot : Key → Key
  | .multiProcess => .writer
  | .keptOnDuplicate => .onDuplicate
  | k => k

/-- What is in the slot of a key after one slot has been cleared. -/
def spare {α : Type} (cleared k : Key) (x : Option α) : Option α := if cleared = k then none else x

theorem spare_spare {α : Type} (cleared k : Key) (x : Option α) :
    cleared.spare k (cleared.spare k x) = cleared.spare k x := by
  unfold spare
  split <;> rfl

/-- The writer that a setting asks for. -/
def writer? (k : Key) (value : String) : Option WriterKind :=
  match k with
  | .writer => WriterKind.ofName? (Text.trim value)
  | .multiProcess => if flag? value = some true then some .parallel else none
  | _ => none

end Key

namespace Draft

/-- A draft with the slot of a key cleared. Columns and their flags have
none. -/
def without (d : Draft) (slot : Key) : Draft where
  format := slot.spare .format d.format
  writer := slot.spare .writer d.writer
  delimiter := slot.spare .delimiter d.delimiter
  quote := slot.spare .quote d.quote
  escape := slot.spare .escape d.escape
  null := slot.spare .null d.null
  forceNotNull := d.forceNotNull
  columns := d.columns
  stride := slot.spare .stride d.stride
  preserveBlanks := slot.spare .preserveBlanks d.preserveBlanks
  skip := slot.spare .skip d.skip
  limit := slot.spare .limit d.limit
  parseErrors := slot.spare .parseErrors d.parseErrors
  duplicateErrors := slot.spare .duplicateErrors d.duplicateErrors
  onDuplicate := slot.spare .onDuplicate d.onDuplicate
  parseBadFile := slot.spare .parseBadFile d.parseBadFile
  duplicateBadFile := slot.spare .duplicateBadFile d.duplicateBadFile
  logFile := slot.spare .logFile d.logFile
  encoding := slot.spare .encoding d.encoding
  checkConstraints := slot.spare .checkConstraints d.checkConstraints
  truncate := slot.spare .truncate d.truncate
  verbose := slot.spare .verbose d.verbose
  bufferSize := slot.spare .bufferSize d.bufferSize
  batchSize := slot.spare .batchSize d.batchSize
  queueSize := slot.spare .queueSize d.queueSize

/-! ## One setting -/

/-- Whether a value is one of the key's does not depend on the draft. -/
theorem isSome_set? (d : Draft) (k : Key) (value : String) :
    (d.set? k value).isSome = k.admits value := by
  unfold Key.admits set?
  cases k <;> simp only [Option.isSome_map, Option.isSome_some]

/-- What a setting does to the other slots does not depend on what is in
one. -/
theorem map_set?_without (d : Draft) (slot k : Key) (value : String) :
    (d.set? k value).map (without · slot)
      = ((d.without slot).set? k value).map (without · slot) := by
  cases k with
  | multiProcess =>
    unfold set?
    simp only [Option.map_map]
    congr 1
    funext yes
    cases yes <;>
      simp only [Function.comp_apply, without, Key.spare_spare, Bool.false_eq_true, if_true,
        if_false]
  | _ =>
    unfold set?
    simp only [without, Option.map_map, Option.map_some, Function.comp_def,
      Key.spare_spare]

section Slot

variable {k : Key} (hcolumn : k ≠ .column) (hforce : k ≠ .forceNotNull)

include hcolumn hforce

/-- A setting does nothing to the other slots. -/
theorem map_set?_slot (d : Draft) (value : String) :
    (d.set? k value).map (without · k.slot) = (d.set? k value).map fun _ => d.without k.slot := by
  cases k with
  | forceNotNull => exact absurd rfl hforce
  | column => exact absurd rfl hcolumn
  | multiProcess =>
    unfold set?
    simp only [Option.map_map]
    congr 1
    funext yes
    cases yes <;> rfl
  | _ =>
    unfold set?
    simp only [Option.map_map]
    rfl

/-- What was in the slot of a key that is set does not matter, unless the
setting leaves it there. -/
theorem set?_without {value : String} (hfills : k = .multiProcess → flag? value ≠ some false)
    (d : Draft) : (d.without k.slot).set? k value = d.set? k value := by
  cases k with
  | forceNotNull => exact absurd rfl hforce
  | column => exact absurd rfl hcolumn
  | multiProcess =>
    unfold set?
    dsimp only
    cases hflag : flag? value with
    | none => rfl
    | some yes =>
      cases yes with
      | true => rfl
      | false => exact absurd hflag (hfills rfl)
  | _ => rfl

end Slot

theorem set?_no (d : Draft) {value : String} (hno : flag? value = some false) :
    d.set? .multiProcess value = some d := by
  unfold set?
  dsimp only
  rw [hno]
  rfl

theorem set?_yes (d : Draft) {value : String} (hyes : flag? value = some true) :
    d.set? .multiProcess value = some { d with writer := some .parallel } := by
  unfold set?
  dsimp only
  rw [hyes]
  rfl

/-- The writer after a setting is the one it asks for, if it asks for
one. -/
theorem map_set?_writer (d : Draft) (k : Key) (value : String) :
    (d.set? k value).map writer
      = (d.set? k value).map fun _ => (k.writer? value).or d.writer := by
  cases k with
  | writer =>
    unfold set? Key.writer?
    dsimp only
    cases WriterKind.ofName? (Text.trim value) <;> rfl
  | multiProcess =>
    unfold set? Key.writer?
    dsimp only
    cases flag? value with
    | none => rfl
    | some yes => cases yes <;> rfl
  | _ =>
    unfold set?
    simp only [Option.map_map]
    rfl

/-! ## One pair after another -/

/-- What a pair comes to. Which error it is does not depend on the
draft. -/
theorem set_cases (name value : String) :
    (Key.named? name = none ∧ ∃ error, ∀ d : Draft, d.set name value = .error error) ∨
      ∃ k error, Key.named? name = some k ∧ ∀ d : Draft,
        d.set name value = ((d.set? k value).map .ok).getD (.error error) := by
  unfold set Key.named?
  dsimp only
  cases Key.ofName? (Text.upper (Text.trim name)) with
  | none => exact .inl ⟨rfl, _, fun _ => rfl⟩
  | some k =>
    refine .inr ⟨k, .config ("invalid value for " ++ Text.upper (Text.trim name) ++ ": '" ++ value
      ++ "'"), rfl, fun d => ?_⟩
    dsimp only
    cases d.set? k value <;> rfl

theorem set_of_set? {name value : String} {k : Key} (hname : Key.named? name = some k)
    {d e : Draft} (h : d.set? k value = some e) : d.set name value = .ok e := by
  obtain ⟨hnone, -⟩ | ⟨k', error, hsome, hset⟩ := set_cases name value
  · rw [hname] at hnone
    cases hnone
  · rw [hname] at hsome
    cases hsome
    rw [hset, h]
    rfl

/-- What a pair comes to if its value is one of its key's. -/
theorem set_of_admits {name value : String} {k : Key} (hname : Key.named? name = some k)
    (hvalue : k.admits value = true) (d : Draft) :
    ∃ e, d.set name value = .ok e ∧ d.set? k value = some e := by
  obtain ⟨e, he⟩ := Option.isSome_iff_exists.mp ((isSome_set? d k value).trans hvalue)
  exact ⟨e, set_of_set? hname he, he⟩

/-- Two outcomes that are the same but for what is in a slot. -/
def Alike (slot : Key) (a b : Except LoadError Draft) : Prop :=
  a.map (without · slot) = b.map (without · slot)

theorem Alike.cases {slot : Key} {a b : Except LoadError Draft} (h : Alike slot a b) :
    (∃ e, a = .error e ∧ b = .error e) ∨
      ∃ d d', a = .ok d ∧ b = .ok d' ∧ d.without slot = d'.without slot := by
  unfold Alike at h
  cases a with
  | error e =>
    cases b with
    | error e' => exact .inl ⟨e, rfl, congrArg Except.error (Except.error.inj h).symm⟩
    | ok d' => cases h
  | ok d =>
    cases b with
    | error e' => cases h
    | ok d' => exact .inr ⟨d, d', rfl, rfl, Except.ok.inj h⟩

theorem set_alike {slot : Key} {d d' : Draft} (h : d.without slot = d'.without slot)
    (name value : String) : Alike slot (d.set name value) (d'.set name value) := by
  obtain ⟨-, error, hset⟩ | ⟨k, error, -, hset⟩ := set_cases name value
  · rw [hset, hset]
    rfl
  · have hmap : (d.set? k value).map (without · slot) = (d'.set? k value).map (without · slot) := by
      rw [map_set?_without d, h, ← map_set?_without d']
    rw [hset, hset]
    cases hset? : d.set? k value with
    | none =>
      rw [hset?, Option.map_none, eq_comm, Option.map_eq_none_iff] at hmap
      rw [hmap]
      rfl
    | some e =>
      rw [hset?, Option.map_some, eq_comm, Option.map_eq_some_iff] at hmap
      obtain ⟨e', hset?', heq⟩ := hmap
      rw [hset?']
      exact congrArg Except.ok heq.symm

section All

variable {d e : Draft} {name value : String} {error : LoadError}

theorem setAll_cons (d : Draft) (name value : String) (pairs : List (String × String)) :
    d.setAll ((name, value) :: pairs) = (d.set name value).bind fun e => e.setAll pairs := by
  rw [setAll]
  cases d.set name value <;> rfl

theorem setAll_cons_ok (h : d.set name value = .ok e) (pairs : List (String × String)) :
    d.setAll ((name, value) :: pairs) = e.setAll pairs := by
  rw [setAll_cons, h]
  rfl

theorem setAll_cons_error (h : d.set name value = .error error)
    (pairs : List (String × String)) : d.setAll ((name, value) :: pairs) = .error error := by
  rw [setAll_cons, h]
  rfl

theorem setAll_append_ok {front : List (String × String)} (h : d.setAll front = .ok e)
    (later : List (String × String)) : d.setAll (front ++ later) = e.setAll later := by
  induction front generalizing d with
  | nil =>
    cases h
    rfl
  | cons pair front ih =>
    cases hset : d.set pair.1 pair.2 with
    | error e' =>
      rw [setAll_cons_error hset] at h
      cases h
    | ok d' =>
      rw [setAll_cons_ok hset] at h
      exact (setAll_cons_ok hset _).trans (ih h)

theorem setAll_append_error {front : List (String × String)} (h : d.setAll front = .error error)
    (later : List (String × String)) : d.setAll (front ++ later) = .error error := by
  induction front generalizing d with
  | nil => cases h
  | cons pair front ih =>
    cases hset : d.set pair.1 pair.2 with
    | error e' =>
      rw [setAll_cons_error hset] at h
      cases h
      exact setAll_cons_error hset _
    | ok d' =>
      rw [setAll_cons_ok hset] at h
      exact (setAll_cons_ok hset _).trans (ih h)

end All

/-- **What is in one slot does not matter to the others**, whatever pairs
follow, and not to whether they are accepted. -/
theorem setAll_alike {slot : Key} {d d' : Draft} (h : d.without slot = d'.without slot)
    (pairs : List (String × String)) : Alike slot (d.setAll pairs) (d'.setAll pairs) := by
  induction pairs generalizing d d' with
  | nil => exact congrArg Except.ok h
  | cons pair pairs ih =>
    obtain ⟨e, he, he'⟩ | ⟨e, e', he, he', heq⟩ := (set_alike h pair.1 pair.2).cases
    · rw [setAll_cons_error he, setAll_cons_error he']
      rfl
    · rw [setAll_cons_ok he, setAll_cons_ok he']
      exact ih heq

/-- **A later setting takes the place of an earlier one of its key**, if it
fills the slot. -/
theorem setAll_override {k : Key} (hcolumn : k ≠ .column) (hforce : k ≠ .forceNotNull)
    {name₁ value₁ name₂ value₂ : String} (hname₁ : Key.named? name₁ = some k)
    (hvalue₁ : k.admits value₁ = true) (hname₂ : Key.named? name₂ = some k)
    (hvalue₂ : k.admits value₂ = true) (hfills : k = .multiProcess → flag? value₂ ≠ some false)
    (d : Draft) (middle rest : List (String × String)) :
    d.setAll ((name₁, value₁) :: (middle ++ (name₂, value₂) :: rest))
      = d.setAll (middle ++ (name₂, value₂) :: rest) := by
  obtain ⟨d₁, hset₁, hset₁?⟩ := set_of_admits hname₁ hvalue₁ d
  have halike : d₁.without k.slot = d.without k.slot := by
    have hmap := map_set?_slot hcolumn hforce d value₁
    rw [hset₁?] at hmap
    exact Option.some.inj hmap
  rw [setAll_cons_ok hset₁]
  obtain ⟨e, he, he'⟩ | ⟨e, e', he, he', heq⟩ := (setAll_alike halike middle).cases
  · rw [setAll_append_error he, setAll_append_error he']
  · -- What the later setting makes of the two drafts is the same.
    obtain ⟨d₂, hset₂, hset₂?⟩ := set_of_admits hname₂ hvalue₂ e
    obtain ⟨d₂', hset₂', hset₂?'⟩ := set_of_admits hname₂ hvalue₂ e'
    rw [← set?_without hcolumn hforce hfills, heq, set?_without hcolumn hforce hfills] at hset₂?
    obtain rfl : d₂ = d₂' := Option.some.inj (hset₂?.symm.trans hset₂?')
    rw [setAll_append_ok he, setAll_append_ok he', setAll_cons_ok hset₂, setAll_cons_ok hset₂']

end Draft

/-! ## Writers -/

/-- The writer that pairs ask for in the end. -/
def Options.askedWriter? (pairs : List (String × String)) : Option WriterKind :=
  (pairs.filterMap fun pair => (Key.named? pair.1).bind fun k => k.writer? pair.2).getLast?

theorem Options.askedWriter?_append (front later : List (String × String)) :
    askedWriter? (front ++ later) = (askedWriter? later).or (askedWriter? front) := by
  unfold askedWriter?
  rw [List.filterMap_append, List.getLast?_append]

theorem Options.askedWriter?_singleton (name value : String) :
    askedWriter? [(name, value)] = (Key.named? name).bind fun k => k.writer? value := by
  rw [askedWriter?, List.filterMap_cons, List.filterMap_nil]
  dsimp only
  cases (Key.named? name).bind fun k => k.writer? value <;> rfl

namespace Draft

theorem set_writer {d e : Draft} {name value : String} (h : d.set name value = .ok e) :
    e.writer = (Options.askedWriter? [(name, value)]).or d.writer := by
  rw [Options.askedWriter?_singleton]
  obtain ⟨-, error, hset⟩ | ⟨k, error, hname, hset⟩ := set_cases name value
  · rw [hset] at h
    cases h
  · rw [hset] at h
    have hmap := map_set?_writer d k value
    rw [hname]
    cases hset? : d.set? k value with
    | none =>
      rw [hset?] at h
      cases h
    | some e' =>
      rw [hset?] at h hmap
      cases h
      exact Option.some.inj hmap

/-- **The writer of a draft is the last one asked for.** -/
theorem setAll_writer {d e : Draft} {pairs : List (String × String)}
    (h : d.setAll pairs = .ok e) : e.writer = (Options.askedWriter? pairs).or d.writer := by
  induction pairs generalizing d with
  | nil =>
    cases h
    rfl
  | cons pair pairs ih =>
    cases hset : d.set pair.1 pair.2 with
    | error e' =>
      rw [setAll_cons_error hset] at h
      cases h
    | ok d₁ =>
      rw [setAll_cons_ok hset] at h
      rw [← List.singleton_append, Options.askedWriter?_append, ih h, set_writer hset,
        Option.or_assoc]

theorem eq_with_writer {d d' : Draft} (h : d.without .writer = d'.without .writer) :
    d = { d' with writer := d.writer } := by
  obtain ⟨⟩ := d
  obtain ⟨⟩ := d'
  simp_all [without, Key.spare]

/-- Nothing but the writer depends on which one is asked for. -/
theorem finish_with_writer (d : Draft) (writer : Option WriterKind) :
    ({ d with writer := writer } : Draft).finish
      = d.finish.map fun o => { o with writer := writer.getD .direct } := by
  have hdialect : ∀ format,
      ({ d with writer := writer } : Draft).dialectFor format = d.dialectFor format := by
    intro format
    cases format <;> rfl
  have hlayout : ∀ format,
      ({ d with writer := writer } : Draft).layoutFor format = d.layoutFor format :=
    fun _ => rfl
  simp only [finish, hdialect, hlayout]
  cases d.dialectFor (d.format.getD .csv) with
  | error e => rfl
  | ok dialect =>
    cases d.layoutFor (d.format.getD .csv) with
    | error e => rfl
    | ok layout =>
      dsimp only
      split <;> rfl

end Draft

namespace Options

theorem finish_eq {d d' : Draft} (h : d.without .writer = d'.without .writer) :
    d.finish = d'.finish.map fun o => { o with writer := d.writer.getD .direct } := by
  rw [Draft.eq_with_writer h]
  exact d'.finish_with_writer d.writer

theorem ofPairs_of_ok {pairs : List (String × String)} {d : Draft}
    (h : ({} : Draft).setAll pairs = .ok d) : ofPairs pairs = d.finish := by
  rw [ofPairs, h]

theorem ofPairs_of_error {pairs : List (String × String)} {e : LoadError}
    (h : ({} : Draft).setAll pairs = .error e) : ofPairs pairs = .error e := by
  rw [ofPairs, h]

theorem ofPairs_congr {pairs pairs' : List (String × String)}
    (h : ({} : Draft).setAll pairs = ({} : Draft).setAll pairs') :
    ofPairs pairs = ofPairs pairs' := by
  rw [ofPairs, h, ofPairs]

/-- The writer of options is the last one asked for. -/
theorem ofPairs_writer {pairs : List (String × String)} {o : Options}
    (h : ofPairs pairs = .ok o) : o.writer = (askedWriter? pairs).getD .direct := by
  cases hd : ({} : Draft).setAll pairs with
  | error e =>
    rw [ofPairs_of_error hd] at h
    cases h
  | ok d =>
    have hwriter : d.writer = askedWriter? pairs :=
      (Draft.setAll_writer hd).trans (Option.or_none ..)
    rw [ofPairs_of_ok hd, finish_eq rfl, hwriter] at h
    cases hfinish : d.finish with
    | error e =>
      rw [hfinish] at h
      cases h
    | ok o' =>
      rw [hfinish] at h
      cases h
      rfl

section Parallel

variable {name value : String} (hname : Key.named? name = some .multiProcess)

include hname

/-- A setting that does not ask for the parallel writer is as good as
none. -/
theorem ofPairs_no (hno : flag? value = some false) (front later : List (String × String)) :
    ofPairs (front ++ (name, value) :: later) = ofPairs (front ++ later) := by
  refine ofPairs_congr ?_
  cases hd : ({} : Draft).setAll front with
  | error e => rw [Draft.setAll_append_error hd, Draft.setAll_append_error hd]
  | ok d =>
    have hset : d.set name value = .ok d := Draft.set_of_set? hname (d.set?_no hno)
    rw [Draft.setAll_append_ok hd, Draft.setAll_append_ok hd, Draft.setAll_cons_ok hset]

/-- **A setting that asks for it counts** unless a later one asks for a
writer. -/
theorem ofPairs_yes (hyes : flag? value = some true) (front later : List (String × String)) :
    ofPairs (front ++ (name, value) :: later)
      = (ofPairs (front ++ later)).map fun o =>
          { o with writer := (askedWriter? later).getD .parallel } := by
  cases hd : ({} : Draft).setAll front with
  | error e =>
    rw [ofPairs_of_error (Draft.setAll_append_error hd _),
      ofPairs_of_error (Draft.setAll_append_error hd _)]
    rfl
  | ok d =>
    have hset : d.set name value = .ok { d with writer := some .parallel } :=
      Draft.set_of_set? hname (d.set?_yes hyes)
    have hslot : ({ d with writer := some .parallel } : Draft).without .writer
        = d.without .writer := rfl
    have hlong : ({} : Draft).setAll (front ++ (name, value) :: later)
        = ({ d with writer := some .parallel } : Draft).setAll later :=
      (Draft.setAll_append_ok hd _).trans (Draft.setAll_cons_ok hset later)
    have hshort := Draft.setAll_append_ok hd later
    obtain ⟨e, he, he'⟩ | ⟨e, e', he, he', heq⟩ := (Draft.setAll_alike hslot later).cases
    · rw [ofPairs_of_error (hlong.trans he), ofPairs_of_error (hshort.trans he')]
      rfl
    · have hwriter : e.writer.getD .direct = (askedWriter? later).getD .parallel := by
        rw [Draft.setAll_writer he]
        cases askedWriter? later <;> rfl
      rw [ofPairs_of_ok (hlong.trans he), ofPairs_of_ok (hshort.trans he'), finish_eq heq, hwriter]

/-- It makes no difference if a later one asks for a writer, or one before
it would have asked for the same in the end. -/
theorem ofPairs_yes_iff (hyes : flag? value = some true) (front later : List (String × String)) :
    ofPairs (front ++ (name, value) :: later) = ofPairs (front ++ later) ↔
      ¬ ((askedWriter? later = none ∧ askedWriter? front ≠ some .parallel) ∧
        ∃ o, ofPairs (front ++ later) = .ok o) := by
  rw [ofPairs_yes hname hyes]
  cases hshort : ofPairs (front ++ later) with
  | error e => exact iff_of_true rfl fun ⟨_, _, ho⟩ => nomatch ho
  | ok o =>
    have hwriter := ofPairs_writer hshort
    rw [askedWriter?_append] at hwriter
    constructor
    · rintro heq ⟨⟨hlater, hfront⟩, -⟩
      have hparallel : WriterKind.parallel = o.writer := by
        rw [hlater] at heq
        exact congrArg Options.writer (Except.ok.inj heq)
      rw [hwriter, hlater, Option.none_or] at hparallel
      cases hasked : askedWriter? front with
      | none =>
        rw [hasked] at hparallel
        cases hparallel
      | some w =>
        rw [hasked] at hparallel hfront
        exact hfront (congrArg some hparallel.symm)
    · intro hnot
      have hsame : (askedWriter? later).getD .parallel = o.writer := by
        rw [hwriter]
        cases hlater : askedWriter? later with
        | some w => rfl
        | none =>
          by_cases hfront : askedWriter? front = some .parallel
          · rw [hfront]
            rfl
          · exact absurd ⟨⟨hlater, hfront⟩, o, rfl⟩ hnot
      show Except.ok { o with writer := (askedWriter? later).getD .parallel } = .ok o
      rw [hsame]

end Parallel

/-! ## Which setting counts -/

/-- A setting that asks for the parallel writer and a later one of its key
that does not, where this makes a difference: nothing behind the first of
them asks for a writer, and what is in front of it would have led to
another one. -/
structure Unrevoked (k : Key) (value₁ value₂ : String) (front later : List (String × String)) :
    Prop where
  key : k = .multiProcess
  yes : flag? value₁ = some true
  no : flag? value₂ = some false
  later : askedWriter? later = none
  front : askedWriter? front ≠ some .parallel

/-- The pairs in which a key is set twice, with and without the first of
the two settings. -/
theorem ofPairs_override {k : Key} (hcolumn : k ≠ .column) (hforce : k ≠ .forceNotNull)
    {name₁ value₁ name₂ value₂ : String} (hname₁ : Key.named? name₁ = some k)
    (hvalue₁ : k.admits value₁ = true) (hname₂ : Key.named? name₂ = some k)
    (hvalue₂ : k.admits value₂ = true) (front middle rest : List (String × String)) :
    let with₁ := front ++ (name₁, value₁) :: (middle ++ (name₂, value₂) :: rest)
    let without₁ := front ++ (middle ++ (name₂, value₂) :: rest)
    (ofPairs with₁ = ofPairs without₁ ↔
        ¬ (Unrevoked k value₁ value₂ front (middle ++ rest) ∧ ∃ o, ofPairs without₁ = .ok o)) ∧
      (Unrevoked k value₁ value₂ front (middle ++ rest) →
        ofPairs with₁ = (ofPairs without₁).map fun o => { o with writer := .parallel }) := by
  intro with₁ without₁
  by_cases hleaves : k = .multiProcess ∧ flag? value₂ = some false
  · obtain ⟨rfl, hno⟩ := hleaves
    have hwith : ofPairs with₁ = ofPairs (front ++ (name₁, value₁) :: (middle ++ rest)) := by
      have hdrop := ofPairs_no hname₂ hno (front ++ (name₁, value₁) :: middle) rest
      simpa only [List.append_assoc, List.cons_append] using hdrop
    have hwithout : ofPairs without₁ = ofPairs (front ++ (middle ++ rest)) := by
      have hdrop := ofPairs_no hname₂ hno (front ++ middle) rest
      simpa only [List.append_assoc] using hdrop
    rw [hwith, hwithout]
    generalize middle ++ rest = later
    by_cases hyes : flag? value₁ = some true
    · refine ⟨(ofPairs_yes_iff hname₁ hyes front later).trans (not_congr (and_congr_left' ?_)),
        fun h => ?_⟩
      · exact ⟨fun h => ⟨rfl, hyes, hno, h.1, h.2⟩, fun h => ⟨h.later, h.front⟩⟩
      · rw [ofPairs_yes hname₁ hyes, h.later]
        rfl
    · have hno₁ : flag? value₁ = some false := by
        rw [← Draft.isSome_set? {}, Draft.set?, Option.isSome_map] at hvalue₁
        cases hflag : flag? value₁ with
        | none =>
          rw [hflag] at hvalue₁
          cases hvalue₁
        | some yes =>
          cases yes with
          | true => exact absurd hflag hyes
          | false => rfl
      exact ⟨iff_of_true (ofPairs_no hname₁ hno₁ front later) fun h => hyes h.1.yes,
        fun h => absurd h.yes hyes⟩
  · -- The later setting fills the slot, so nothing is left of the earlier one.
    have hfills : k = .multiProcess → flag? value₂ ≠ some false := fun hk hno =>
      hleaves ⟨hk, hno⟩
    have hsame : ofPairs with₁ = ofPairs without₁ := by
      refine ofPairs_congr ?_
      cases hd : ({} : Draft).setAll front with
      | error e => rw [Draft.setAll_append_error hd, Draft.setAll_append_error hd]
      | ok d =>
        rw [Draft.setAll_append_ok hd, Draft.setAll_append_ok hd,
          Draft.setAll_override hcolumn hforce hname₁ hvalue₁ hname₂ hvalue₂ hfills]
    have hnot : ¬ Unrevoked k value₁ value₂ front (middle ++ rest) := fun h => hfills h.key h.no
    exact ⟨iff_of_true hsame fun h => hnot h.1, fun h => absurd h hnot⟩

end Options

namespace CommandLine

theorem loadOptions_eq {control : Option String} {options : List String} {s : Site}
    {first second : List (String × String)} (hfirst : controlPairs control s = .ok first)
    (hsecond : readPairs options = .ok second) :
    loadOptions control options s = (Options.ofPairs (first ++ second)).mapError .ofLoad := by
  rw [loadOptions, hfirst, hsecond]
  dsimp only
  cases Options.ofPairs (first ++ second) <;> rfl

/-- **A later setting of a key counts as if it were the only one**, with
one exception: asking for the parallel writer is not revoked by not asking
for it. So a setting on the command line takes the place of those of its
key in the control file. -/
theorem later_setting_counts {k : Key} (hcolumn : k ≠ .column) (hforce : k ≠ .forceNotNull)
    {name₁ value₁ name₂ value₂ : String} (hname₁ : Key.named? name₁ = some k)
    (hvalue₁ : k.admits value₁ = true) (hname₂ : Key.named? name₂ = some k)
    (hvalue₂ : k.admits value₂ = true) :
    (∀ front middle rest,
      let both := front ++ (name₁, value₁) :: (middle ++ (name₂, value₂) :: rest)
      let later := front ++ (middle ++ (name₂, value₂) :: rest)
      (Options.ofPairs both = Options.ofPairs later ↔
          ¬ (Options.Unrevoked k value₁ value₂ front (middle ++ rest) ∧
            ∃ o, Options.ofPairs later = .ok o)) ∧
        (Options.Unrevoked k value₁ value₂ front (middle ++ rest) →
          Options.ofPairs both
            = (Options.ofPairs later).map fun o => { o with writer := .parallel })) ∧
      ∀ control control' options s s' front middle middle' rest,
        controlPairs control s = .ok (front ++ (name₁, value₁) :: middle) →
        controlPairs control' s' = .ok (front ++ middle) →
        readPairs options = .ok (middle' ++ (name₂, value₂) :: rest) →
        ¬ Options.Unrevoked k value₁ value₂ front (middle ++ middle' ++ rest) →
          loadOptions control options s = loadOptions control' options s' := by
  have hoverride := Options.ofPairs_override hcolumn hforce hname₁ hvalue₁ hname₂ hvalue₂
  refine ⟨hoverride, ?_⟩
  intro control control' options s s' front middle middle' rest hcontrol hcontrol' hoptions hnot
  rw [loadOptions_eq hcontrol hoptions, loadOptions_eq hcontrol' hoptions]
  have hsame := (hoverride front (middle ++ middle') rest).1.mpr fun h => hnot h.1
  have hmapped := congrArg (Except.mapError Complaint.ofLoad) hsame
  simpa only [List.append_assoc, List.cons_append] using hmapped

/-- A quote that is given again, by its name in another case and behind
something that goes by the quote; one that stands in a control file; and a
parallel writer that is asked for and then not. -/
theorem later_setting_counts_quote :
    Options.ofPairs [("QUOTE", "!"), ("ESCAPE", "~"), (" quote", "|")]
        = Options.ofPairs [("ESCAPE", "~"), (" quote", "|")] ∧
      loadOptions (some "c") [" quote=|"] { directory := .ofFiles [("c", Bytes.ascii "QUOTE = !")] }
        = loadOptions none [" quote=|"] {} ∧
      Options.ofPairs [("MULTI_PROCESS", "yes"), ("MULTI_PROCESS", "no")]
        = (Options.ofPairs [("MULTI_PROCESS", "no")]).map fun o =>
            { o with writer := .parallel } := by
  have hquote : Key.named? "QUOTE" = some .quote := by decide +kernel
  have hlower : Key.named? " quote" = some .quote := by decide +kernel
  have hlower' : Key.named? "quote" = some .quote := by decide +kernel
  have hmulti : Key.named? "MULTI_PROCESS" = some .multiProcess := by decide +kernel
  have hbang : Key.admits .quote "!" = true := rfl
  have hbar : Key.admits .quote "|" = true := rfl
  have hyes : Key.admits .multiProcess "yes" = true := by decide +kernel
  have hno : Key.admits .multiProcess "no" = true := by decide +kernel
  refine ⟨?_, ?_, ?_⟩
  · exact ((later_setting_counts (by decide) (by decide) hquote hbang hlower hbar).1 []
      [("ESCAPE", "~")] []).1.mpr fun h => nomatch h.1.key
  · exact (later_setting_counts (by decide) (by decide) hquote hbang hlower' hbar).2 (some "c") none
      [" quote=|"] _ {} [] [] [] [] (by decide +kernel) rfl (by decide +kernel)
      fun h => nomatch h.key
  · exact ((later_setting_counts (by decide) (by decide) hmulti hyes hmulti hno).1 [] [] []).2
      ⟨rfl, by decide +kernel, by decide +kernel, rfl, nofun⟩

/-- The writer is parallel, although the later setting does not ask for
it, and the options without the earlier one are others. -/
theorem parallel_not_revoked :
    Key.named? "MULTI_PROCESS" = some .multiProcess ∧
      Key.admits .multiProcess "YES" = true ∧ Key.admits .multiProcess "NO" = true ∧
      Options.ofPairs [("MULTI_PROCESS", "YES"), ("MULTI_PROCESS", "NO")]
        ≠ Options.ofPairs [("MULTI_PROCESS", "NO")] := by
  decide +kernel

end CommandLine
end Intake
