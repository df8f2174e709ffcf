import Intake.Proofs.Conversion.Number
import Intake.Proofs.Record.Again
import Intake.Proofs.Run.Limit
import Intake.Proofs.Run.Trace
import Intake.Proofs.Writer.Files
/-!
# Rejected records have no influence

A load that comes to a good end is compared with one of its accepted
records only, put one after another: both give their writers the same
rows with the same records, and come to the same counts but for those
rejected (`Loader.run_of_accepted`). Whatever a rejected record leaves
behind, in the row or in the reader, a later one does not meet.

The second run follows the trace of the first (`Beside.follow`): it does
nothing about a rejected record, and about an accepted one the same.
Between records the two sites differ in the log and in what was said about
rejected records, and agree on files that the first run does not say
anything about them in. The files must therefore be none that rejected
records are kept in, and none that observers write to. If duplicates are
kept in the file of rejected records, it holds both
(`Loader.run_of_accepted_shared`).
-/

namespace Intake

/-- A writer whose calls are noted is as blind as it was. -/
theorem Writer.Blind.noting {σ : Type} {w : Writer σ} (h : w.Blind) : w.noting.Blind where
  insert {_ st st' row raw s s₁ _} hinsert hs := by
    rcases hgiven : w.insert st.1 row raw s with ⟨outcome, x, s₂⟩
    have hnoted := Writer.noting_insert (x := st) hgiven
    cases hnoted.symm.trans hinsert
    obtain ⟨halong, s₁', hgiven', h₁⟩ := h.insert hgiven hs
    exact ⟨halong, s₁', Writer.noting_insert (x := st) hgiven', h₁⟩
  close {_ st st' counts s s₁ _} hclose hs := by
    rcases hclosed : w.close st.1 false s with ⟨outcome, x, s₂⟩
    have hnoted := Writer.noting_close hclosed
    cases hnoted.symm.trans hclose
    obtain ⟨halong, s₁', hclosed', h₁⟩ := h.close hclosed hs
    exact ⟨halong, s₁', Writer.noting_close hclosed', h₁⟩

/-- What is done about a rejected record leaves some files alone. -/
theorem Rejects.reject_agrees {names : String → Prop} {r : Rejects} {d : Directory} {s : Site}
    (hfile : r.file.Elsewhere names d) (hs : d.Alongside s.directory)
    (hobserver : r.observer.Keeps names s) (record : Nat) (raw : Bytes) (rejection : Rejection) :
    ∃ outcome r₁ s₁, r.reject record raw rejection s = (outcome, r₁, s₁) ∧
      r₁.file.Elsewhere names d ∧ r₁.observer = r.observer ∧ s.Agrees names s₁ := by
  unfold Rejects.reject
  dsimp only
  generalize hwarned : s.warn _ = warned
  have hwarn : s.Agrees names warned := hwarned ▸ s.agrees_warn names _
  have hheard := hwarn.trans (hobserver (.rejected r.context rejection.kind record
    rejection.message) warned hwarn.alongside)
  generalize r.observer (.rejected r.context rejection.kind record rejection.message) warned
    = heard at hheard
  obtain ⟨outcome, file, d₁, happend, hfile₁, h₁⟩ :=
    hfile.append (hs.trans hheard.directory.toAlongside) raw
  have hsite : s.Agrees names { heard with directory := d₁ } := hheard.trans ⟨h₁, rfl⟩
  rw [happend]
  cases outcome with
  | error e => exact ⟨_, _, _, rfl, hfile₁, rfl, hsite⟩
  | ok _ =>
    dsimp only
    split
    · obtain ⟨file₂, d₂, hflush, hfile₂, h₂⟩ := hfile₁.flush d₁
      simp only [Rejects.flush, hflush]
      exact ⟨_, _, _, rfl, hfile₂, rfl, hsite.trans ⟨h₂, rfl⟩⟩
    · exact ⟨_, _, _, rfl, hfile₁, rfl, hsite⟩

namespace Loader

variable {σ : Type}

/-- A run of all records of its input, whose catalog only refuses values
and whose writer is blind. What it says about rejected records is said in
none of some files. -/
structure Unhindered (l : Loader) (w : Writer σ) (names : String → Prop) (s : Site) : Prop where
  catalog : l.catalog.Mild
  skip : l.options.skip = 0
  limit : l.options.limit = none
  badFile : ∀ path name, l.options.parseBadFile = some path →
    (s.directory.openToAppend path).1 = .ok name → ¬ names name
  observers : l.observers.Keeps names s
  writer : w.Blind

/-- Two runs from one site that have given their writers the same, the
second without having rejected anything. -/
structure Beside (l : Loader) (names : String → Prop) (s : Site) (st st₂ : State (σ × List Call)) :
    Prop where
  writer : st₂.writer = st.writer
  site : st.site.Agrees names st₂.site
  started : s.Alongside st.site
  file : st.rejects.file.Elsewhere names s.directory
  observer : st.rejects.observer = l.observers
  fresh : st₂.rejects = l.rejects

section Follow

variable {l : Loader} {w : Writer σ} {names : String → Prop} {s : Site} {x : Record}
  {st st₁ st₂ : State (σ × List Call)}

theorem Unhindered.keeps (hl : l.Unhindered w names s) {s' : Site} (hs : s.Alongside s') :
    l.observers.Keeps names s' := fun e s'' hs' => hl.observers e s'' (hs.trans hs')

/-- Both runs start in the same state. -/
theorem Unhindered.start (hl : l.Unhindered w names s) (writer : σ × List Call) :
    l.Beside names s ⟨writer, l.rejects, l.observers (.started l.context) s⟩
      ⟨writer, l.rejects, l.observers (.started l.context) s⟩ where
  writer := rfl
  site := .refl _ _
  started := (hl.observers _ s (.refl s)).alongside
  file := ⟨nofun, hl.badFile⟩
  observer := rfl
  fresh := rfl

/-- Nobody asks a run to stop for whom only values are refused. -/
theorem Unhindered.request (hl : l.Unhindered w names s) (x : Record) (s' : Site) :
    s'.request (l.rules.judge x).requests = s' := by
  rw [Rules.judge, (l.rules.attempt_of_mild hl.catalog x (Row.blank _)).requests]
  rfl

/-- An accepted record is dealt with in both runs, under whatever number. -/
theorem Beside.accepted (h : l.Beside names s st st₂) (hl : l.Unhindered w names s)
    (hx : l.rules.accepts x = true) (hdealt : Dealt w.noting l.rules x st (.ok ()) st₁)
    (number : Nat) :
    ∃ st₃, Dealt w.noting l.rules { x with number := number } st₂ (.ok ()) st₃ ∧
      l.Beside names s st₁ st₃ := by
  have hjudged := l.rules.outcome_of_accepts hx
  have hsame := l.rules.judge_number hjudged number
  generalize houtcome : (Except.ok () : Except LoadError Unit) = outcome at hdealt
  cases hdealt with
  | @accepted answer writer site judged insert =>
    obtain rfl : answer = .ok () := by
      cases answer with
      | error e => cases houtcome
      | ok _ => rfl
    rw [hl.request] at insert
    obtain ⟨halong, site₂, insert₂, hagrees⟩ := hl.writer.noting.insert insert h.site
    refine ⟨⟨writer, st₂.rejects, site₂⟩, ?_, ⟨rfl, hagrees, h.started.trans halong, h.file,
      h.observer, h.fresh⟩⟩
    show Dealt w.noting l.rules { x with number := number } st₂ (Except.mapError .writer (.ok ())) _
    refine Dealt.accepted (hsame ▸ hjudged) ?_
    rw [hsame, hl.request, h.writer]
    exact insert₂
  | rejected judged => cases hjudged.symm.trans judged
  | fatal judged => cases hjudged.symm.trans judged

/-- A rejected record is dealt with in the first run only. -/
theorem Beside.rejected (h : l.Beside names s st st₂) (hl : l.Unhindered w names s)
    (hx : l.rules.accepts x = false) (hdealt : Dealt w.noting l.rules x st (.ok ()) st₁) :
    l.Beside names s st₁ st₂ := by
  obtain ⟨e, hjudged⟩ := l.rules.outcome_of_not_accepts hx
  generalize (Except.ok () : Except LoadError Unit) = outcome at hdealt
  cases hdealt with
  | accepted judged => cases hjudged.symm.trans judged
  | rejected judged reject =>
    rw [hl.request] at reject
    obtain ⟨answer, rejects, site, hreject, hfile, hobserver, hagrees⟩ :=
      Rejects.reject_agrees h.file h.started.directory (h.observer ▸ hl.keeps h.started) x.number
        x.raw _
    cases reject.symm.trans hreject
    exact ⟨h.writer, h.site.left hagrees, h.started.trans hagrees.alongside, hfile,
      hobserver.trans h.observer, h.fresh⟩
  | fatal judged =>
    rw [hl.request]
    exact ⟨h.writer, h.site, h.started, h.file, h.observer, h.fresh⟩

/-- **The second run follows the first**, with the accepted records as
they are counted by its own reader. -/
theorem Beside.follow {left : Option Nat} {reader again : RecordReader} {xs : List Record}
    {count : Nat} (h : l.Beside names s st st₂) (hl : l.Unhindered w names s)
    (hleft : left = none) (htrace : Trace w.noting l.rules left reader st xs (.ok ()) st₁)
    (hagain : again.Delivers (Record.renumber count (xs.filter l.rules.accepts)) (.ok ())) :
    ∃ st₃, Trace w.noting l.rules left again st₂
        (Record.renumber count (xs.filter l.rules.accepts)) (.ok ()) st₃ ∧
      l.Beside names s st₁ st₃ := by
  generalize houtcome : (Except.ok () : Except LoadError Unit) = outcome at htrace
  induction htrace generalizing st₂ again count with
  | spent => cases hleft
  | interrupted => cases houtcome
  | ended hsome calm next =>
    obtain ⟨mid, last, hyields, hend⟩ := hagain
    cases hyields
    have hcalm := (congrArg Token.pending h.site.token).trans calm
    exact ⟨st₂, houtcome ▸ .ended hsome hcalm hend, h⟩
  | unread => cases houtcome
  | stopped => cases houtcome
  | @turn left reader mid st st' final x xs outcome hsome calm next dealt rest ih =>
    subst hleft
    cases hx : l.rules.accepts x with
    | false =>
      rw [List.filter_cons_of_neg (by simp [hx])] at hagain ⊢
      exact ih (h.rejected hl hx dealt) rfl hagain houtcome
    | true =>
      rw [List.filter_cons_of_pos hx] at hagain ⊢
      obtain ⟨st₃, dealt₂, h₃⟩ := h.accepted hl hx dealt (count + 1)
      obtain ⟨last, final₂, hyields, hend⟩ := hagain
      cases hyields with
      | cons next₂ yields =>
        obtain ⟨st₄, rest₂, h₄⟩ := ih h₃ rfl ⟨last, final₂, yields, hend⟩ houtcome
        have hcalm := (congrArg Token.pending h.site.token).trans calm
        exact ⟨st₄, .turn hsome hcalm next₂ dealt₂ rest₂, h₄⟩

/-- Both writers are closed and come to the same counts. -/
theorem Beside.finish {counts : Counts} (h : l.Beside names s st st₂) (hl : l.Unhindered w names s)
    (hfinish : Loader.finish w.noting st = (.ok counts, st₁)) :
    ∃ st₃, Loader.finish w.noting st₂ = (.ok counts, st₃) ∧ st₃.writer = st₁.writer ∧
      s.Alongside st₁.site ∧ st₁.site.Agrees names st₃.site := by
  unfold Loader.finish at hfinish ⊢
  obtain ⟨file, d₁, hflush, -, hd₁⟩ := h.file.flush st.site.directory
  have hflushed : st.site.Agrees names { st.site with directory := d₁ } := ⟨hd₁, rfl⟩
  -- the second run has no file open, so there is nothing to be written to it
  have hnothing : st₂.rejects.flush st₂.site = (st₂.rejects, st₂.site) := by
    rw [h.fresh]
    rfl
  simp only [Rejects.flush, hflush] at hfinish
  rw [hnothing]
  dsimp only
  rcases hclose : w.noting.close st.writer false { st.site with directory := d₁ } with
    ⟨_ | _, writer, site⟩
  · rw [hclose] at hfinish
    cases hfinish
  · obtain ⟨halong, site₂, hclose₂, hagrees⟩ :=
      hl.writer.noting.close hclose (h.site.left hflushed)
    rw [hclose] at hfinish
    rw [h.writer, hclose₂]
    cases hfinish
    exact ⟨_, rfl, rfl, (h.started.trans hflushed.alongside).trans halong, hagrees⟩

end Follow

/-! ## Two runs -/

section Runs

variable {l : Loader} {w : Writer σ} {names : String → Prop} {s : Site} {bytes : ByteSource}
  {reader : RecordReader} {writer : σ}

/-- A run that comes to a good end. -/
theorem run_ok {source : Source} {start last : σ × List Call} {summary : Summary} {site : Site}
    (h : l.run w.noting source start s = (.ok summary, last, site)) :
    ∃ skipped st st' counts,
      l.load w.noting source ⟨start, l.rejects, l.observers (.started l.context) s⟩
        = (skipped, .ok (), st) ∧
      Loader.finish w.noting st = (.ok counts, st') ∧
      summary = (counted skipped st.rejects.count).withCounts counts ∧ last = st'.writer ∧
      site = l.observers (.succeeded l.context summary) st'.site := by
  unfold run at h
  dsimp only at h
  rcases hload : l.load w.noting source ⟨start, l.rejects, l.observers (.started l.context) s⟩ with
    ⟨skipped, e | _, st⟩
  · rw [hload] at h
    cases h
  · rw [hload] at h
    dsimp only at h
    rcases hfinish : Loader.finish w.noting st with ⟨e | counts, st'⟩
    · rw [hfinish] at h
      cases h
    · rw [hfinish] at h
      cases h
      exact ⟨skipped, st, st', counts, rfl, hfinish, rfl, rfl, rfl⟩

/-- A good end of a run with all records of its input is that of a trace. -/
theorem Unhindered.load_ok (hl : l.Unhindered w names s)
    (hstart : RecordReader.start (.bytes bytes) l.options l.schema = .ok reader) {skipped : Nat}
    {st st' : State (σ × List Call)}
    (hload : l.load w.noting (.bytes bytes) st = (skipped, .ok (), st')) :
    skipped = 0 ∧ st.site.token.pending = none ∧
      ∃ xs, Trace w.noting l.rules none reader st xs (.ok ()) st' := by
  rcases load_cases (w := w.noting) hstart st with
    ⟨e, hfailed⟩ | ⟨passed, reader', xs, outcome, last, hpending, hskip, htrace, htraced⟩
  · cases hfailed.symm.trans hload
  · cases htraced.symm.trans hload
    rw [hl.skip] at hskip
    rw [hl.limit] at htrace
    obtain ⟨rfl, rfl⟩ : skipped = 0 ∧ reader' = reader := by
      cases reader <;> cases hskip <;> exact ⟨rfl, rfl⟩
    exact ⟨rfl, hpending, xs, htrace⟩

/-- The bytes of the records that are accepted. -/
def acceptedBytes (l : Loader) (xs : List Record) : Bytes :=
  ((xs.filter l.rules.accepts).map Record.raw).flatten

/-- A record that is accepted is none that the input has ended inside. -/
theorem shortfall_of_accepts {x : Record} (hx : l.rules.accepts x = true) :
    x.shortfall = none := by
  have hjudged := l.rules.outcome_of_accepts hx
  unfold Rules.judge Rules.attempt Row.build at hjudged
  cases hshortfall : x.shortfall with
  | none => rfl
  | some shortfall =>
    rw [hshortfall] at hjudged
    cases hjudged

/-- **Rejected records have no influence on a load that succeeds.** -/
theorem run_of_accepted (hl : l.Unhindered w names s)
    (hstart : RecordReader.start (.bytes bytes) l.options l.schema = .ok reader)
    {summary : Summary} {last : σ × List Call} {site : Site}
    (hrun : l.run w.noting (.bytes bytes) (writer, []) s = (.ok summary, last, site)) :
    ∃ xs, reader.Delivers xs (.ok ()) ∧ Call.given last.2 = l.rules.acceptedRows xs ∧
      ((l.options.format = .fixed ∨
          ∀ x ∈ xs, l.rules.accepts x = true → ¬ l.options.dialect.Dangling x.raw) →
        ∀ cuts, ∃ site',
          l.run w.noting (.bytes { rest := l.acceptedBytes xs, cuts := cuts }) (writer, []) s
            = (.ok { summary with parseRejected := 0 }, last, site') ∧
          site.directory.Agrees names site'.directory) := by
  obtain ⟨skipped, st, st', counts, hload, hfinish, hsummary, rfl, rfl⟩ := run_ok hrun
  obtain ⟨rfl, hcalm, xs, htrace⟩ := hl.load_ok hstart hload
  refine ⟨xs, htrace.delivers, (given_finish hfinish).trans htrace.given, fun hends cuts => ?_⟩
  obtain ⟨hinOrder, again, hagain, hmanner, hbefore⟩ :=
    RecordReader.start_again hstart (l.acceptedBytes xs) cuts
  obtain ⟨last, final, hyields, -⟩ := htrace.delivers
  have hmakes := hyields.makes hinOrder
  have hdelivers : again.Delivers (Record.renumber 0 (xs.filter l.rules.accepts)) (.ok ()) := by
    refine RecordReader.delivers_again hbefore (fun x hx => ?_) fun x hx => ?_
    · rw [hmanner]
      exact hmakes x (List.mem_filter.mp hx).1
    · rw [hmanner]
      obtain ⟨hmem, haccepts⟩ := List.mem_filter.mp hx
      exact RecordReader.start_repeats hstart (shortfall_of_accepts haccepts)
        (hends.imp_right fun h => h x hmem haccepts)
  obtain ⟨st₂, htrace₂, h₂⟩ := (hl.start (writer, [])).follow hl rfl htrace hdelivers
  obtain ⟨st₃, hfinish₂, hwriter, halong, hagrees⟩ := h₂.finish hl hfinish
  have hskip : again.skip l.options.skip = (.ok 0, again) := by
    rw [hl.skip]
    cases again <;> rfl
  obtain ⟨ys, stop, hys, hfuel⟩ := exists_delivers_bound hagain hskip
  obtain ⟨rfl, -⟩ := hys.unique hdelivers
  have hload₂ := load_of_trace hagain hcalm hskip (hl.limit ▸ htrace₂) hfuel
  have hcount : st₂.rejects.count = 0 := by
    rw [h₂.fresh]
    rfl
  refine ⟨l.observers (.succeeded l.context { summary with parseRejected := 0 }) st₃.site, ?_, ?_⟩
  · rw [run_of_finish hload₂ hfinish₂, hcount, hwriter, hsummary]
    rfl
  · exact ((hl.keeps halong _ _ (.refl _)).symm.trans hagrees).directory.trans
      (hl.keeps (halong.trans hagrees.alongside) _ _ (.refl _)).directory

end Runs

/-! ## A table with a key -/

/-- A load of whole numbers that puts up with any number of records that
are none. -/
def anyIntegers : Loader :=
  { integers with options := { integers.options with parseErrors := .unlimited } }

/-- A writer over an empty table with a key that keeps the rows that are
left out in a file. -/
def keyedWriter (path : String) : LocalWriter where
  storage := { medium := .table { keyColumn := some 0 } }
  duplicates := { policy := .keepOld, limit := .unlimited, file := { path := some path } }

theorem unhindered_anyIntegers :
    anyIntegers.Unhindered LocalWriter.writer (· = "duplicate.bad") {} where
  catalog := Catalog.mild_plain
  skip := rfl
  limit := rfl
  badFile := by
    rintro _ name ⟨⟩ hopen rfl
    exact absurd hopen (by decide +kernel)
  observers := Observer.keeps_of_spares ⟨_, rfl⟩ fun _ _ => Observer.spares_silent
  writer := LocalWriter.blind

/-- A load that rejects one record and leaves out one row. -/
theorem run_of_accepted_keyed :
    let bytes : ByteSource := { rest := Bytes.ascii "1\nx\n1\n2\n", cuts := [] }
    let run (bytes : ByteSource) :=
      anyIntegers.run LocalWriter.writer.noting (.bytes bytes) (keyedWriter "duplicate.bad", []) {}
    anyIntegers.Unhindered LocalWriter.writer (· = "duplicate.bad") {} ∧
      (run bytes).1 = .ok { loaded := 2, parseRejected := 1, duplicateNew := 1 } ∧
      ∃ reader, RecordReader.start (.bytes bytes) anyIntegers.options anyIntegers.schema
          = .ok reader ∧
        ∃ xs, reader.Delivers xs (.ok ()) ∧
          Call.given (run bytes).2.1.2 = anyIntegers.rules.acceptedRows xs ∧
          ∀ cuts, ∃ site', run { rest := anyIntegers.acceptedBytes xs, cuts := cuts }
              = (.ok { loaded := 2, duplicateNew := 1 }, (run bytes).2.1, site') ∧
            (run bytes).2.2.directory.Agrees (· = "duplicate.bad") site'.directory := by
  intro bytes run
  have houtcome : (run bytes).1 = .ok { loaded := 2, parseRejected := 1, duplicateNew := 1 } := by
    decide +kernel
  have hrun : run bytes = (.ok { loaded := 2, parseRejected := 1, duplicateNew := 1 },
      (run bytes).2.1, (run bytes).2.2) := Prod.ext houtcome rfl
  have hstart : RecordReader.start (.bytes bytes) anyIntegers.options anyIntegers.schema
      = .ok _ := rfl
  obtain ⟨xs, hdelivers, hgiven, hagain⟩ := run_of_accepted unhindered_anyIntegers hstart hrun
  exact ⟨unhindered_anyIntegers, houtcome, _, rfl, xs, hdelivers, hgiven,
    hagain (.inr fun _ _ _ => Dialect.not_dangling_of_quote (q := 0x22) rfl)⟩

/-- A load that keeps rejected records and rows that are left out in one
file, and the load of its accepted records: the file is another. -/
theorem run_of_accepted_shared :
    let shared := { anyIntegers with
      options := { anyIntegers.options with parseBadFile := some "bad" } }
    let source (text : String) := Source.bytes { rest := Bytes.ascii text, cuts := [] }
    let run (text : String) :=
      shared.run LocalWriter.writer (source text) (keyedWriter "bad") {}
    let record (number : Nat) (text : String) : Record :=
      ⟨number, Bytes.ascii (text ++ "\n"), [⟨Bytes.ascii text, false⟩], none⟩
    let xs := [record 1 "1", record 2 "x", record 3 "1"]
    (∃ reader, RecordReader.start (source "1\nx\n1\n") shared.options shared.schema = .ok reader ∧
        reader.Delivers xs (.ok ())) ∧
      shared.acceptedBytes xs = Bytes.ascii "1\n1\n" ∧
      (run "1\nx\n1\n").1 = .ok { loaded := 1, parseRejected := 1, duplicateNew := 1 } ∧
      (run "1\n1\n").1 = .ok { loaded := 1, duplicateNew := 1 } ∧
      (run "1\nx\n1\n").2.2.directory.bytesAt "bad" = Bytes.ascii "x\n1\n" ∧
      (run "1\n1\n").2.2.directory.bytesAt "bad" = Bytes.ascii "1\n" := by
  intro shared source run record xs
  let input := Bytes.ascii "1\nx\n1\n"
  let limit := (Buffer.ofSizes shared.options.bufferSize shared.options.maxBufferSize).max
  have hrecords : (Dialect.csv.divide input).records .csv [false] limit 0 = xs := by
    decide +kernel
  have hstop : (Dialect.csv.divide input).stop limit 0 = .ok none := by decide +kernel
  have hdelivers := DelimitedReader.delivers_division (DelimitedReader.ready_start input []
    .csv [false] shared.options.bufferSize shared.options.maxBufferSize)
  rw [DelimitedReader.unread, Buffer.pending_ofSizes, List.nil_append, hrecords, hstop] at hdelivers
  exact ⟨⟨_, rfl, hdelivers⟩, by decide +kernel, by decide +kernel, by decide +kernel,
    by decide +kernel, by decide +kernel⟩

end Loader
end Intake
