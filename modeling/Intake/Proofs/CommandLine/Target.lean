import Intake.CommandLine.Program
import Intake.Proofs.Run.Account
import Intake.Proofs.Run.Blame
import Intake.Proofs.Writer.Steady
/-!
# What a load that fails for its options leaves of its target

A load holds its options to themselves first, opens the file that its
rows go to, empties that file if it is to, and only then holds the
options to the source and the table. So a fault that is found in the
options by themselves leaves everything as it was, and one that is found
later leaves every file with what it had, except that an output that was
to be emptied has been (`CommandLine.load_config`).
`CommandLine.load_config_emptied` is such a load: nothing of what its
output held is left, and it has read nothing.
-/

namespace Intake

/-! ## Telling failures apart -/

/-- A message that does not begin like those about options. -/
def Apart (message : String) : Prop :=
  2 ≤ message.toList.length ∧ message.toList.take 2 ≠ ['i', 'n']

instance (message : String) : Decidable (Apart message) :=
  inferInstanceAs (Decidable (_ ∧ _))

theorem Apart.append {message : String} (h : Apart message) (more : String) :
    Apart (message ++ more) := by
  unfold Apart at h ⊢
  rw [String.toList_append, List.length_append, List.take_append_of_le_length h.1]
  exact ⟨Nat.le_trans h.1 (Nat.le_add_right _ _), h.2⟩

theorem apart_kind (kind : Interrupt) : Apart kind.message := by
  cases kind <;> decide +kernel

theorem apart_queue (e : QueueError) : Apart e.message := by
  have hio : Apart "queue io error: " := by decide +kernel
  have hmagic : Apart "shared segment " := by decide +kernel
  have hlarge : Apart "queue request of " := by decide +kernel
  have hcapacity : Apart "queue capacity " := by decide +kernel
  have hgone : Apart "queue peer process " := by decide +kernel
  have hclosed : Apart "ring queue " := by decide +kernel
  cases e with
  | io e => exact hio.append _
  | badMagic key found => exact (((hmagic.append _).append _).append _).append _
  | tooLarge requested capacity => exact ((hlarge.append _).append _).append _
  | invalidCapacity capacity => exact (hcapacity.append _).append _
  | interrupted kind => exact apart_kind kind
  | peerGone pid => exact (hgone.append _).append _
  | closed key => exact (hclosed.append _).append _

theorem apart_writer (e : WriterError) : Apart e.message := by
  have hstorage : Apart "storage failure: " := by decide +kernel
  have hkey : Apart "duplicate key value in row: " := by decide +kernel
  have hlimit : Apart "too many duplicate errors: " := by decide +kernel
  have hio : Apart "io error: " := by decide +kernel
  have hencode : Apart "failed to encode row frame: " := by decide +kernel
  have hstalled : Apart "loader process stalled: queue stayed full for " := by decide +kernel
  have hremote : Apart "loader process failed: " := by decide +kernel
  cases e with
  | storage text => exact hstorage.append _
  | interrupted kind => exact apart_kind kind
  | duplicateKey key => exact hkey.append _
  | duplicateLimit count limit => exact (((hlimit.append _).append _).append _).append _
  | io e => exact hio.append _
  | encode text => exact hencode.append _
  | queue e => exact apart_queue e
  | peerGone => decide +kernel
  | peerStalled stalls => exact (hstalled.append _).append _
  | remote text => exact hremote.append _
  | closed => decide +kernel

/-- What stops a run for another reason is worded in another way. -/
theorem apart_load {e : LoadError} (he : e.isConfig = false) : Apart e.message := by
  have hio : Apart "io error: " := by decide +kernel
  have hrecord : Apart "record " := by decide +kernel
  have hquote : Apart "unterminated quoted field in record " := by decide +kernel
  have hskip : Apart "cannot skip " := by decide +kernel
  have hlimit : Apart "too many parse errors: " := by decide +kernel
  have hsource : Apart "row source failed: " := by decide +kernel
  cases e with
  | io e => exact hio.append _
  | config text => cases he
  | recordTooLarge record max => exact (((hrecord.append _).append _).append _).append _
  | unterminatedQuote record => exact hquote.append _
  | skipExceedsInput requested found => exact ((hskip.append _).append _).append _
  | interrupted kind => exact apart_kind kind
  | parseErrorLimit count limit => exact (((hlimit.append _).append _).append _).append _
  | source text => exact hsource.append _
  | writer e => exact apart_writer e
  | queue e => exact apart_queue e

/-- A complaint that prints like one about options begins like it. -/
theorem Complaint.not_apart {c : Complaint} {text : String}
    (h : c.text = (Complaint.ofLoad (.config text)).text) : ¬ Apart c.message := by
  rintro ⟨hlong, hapart⟩
  refine hapart ?_
  obtain ⟨behind, hbehind⟩ : ∃ behind, c.text = "Error: " ++ c.message ++ behind := ⟨_, rfl⟩
  have hconfig : (Complaint.ofLoad (.config text)).text
      = "Error: " ++ ("invalid configuration: " ++ text) ++ "" := rfl
  have hletters := congrArg String.toList (hbehind.symm.trans (h.trans hconfig))
  simp only [String.toList_append, List.append_assoc] at hletters
  have hfirst := congrArg (List.take 2) (List.append_cancel_left hletters)
  rw [List.take_append_of_le_length hlong] at hfirst
  exact hfirst

/-! ## Steps that only add to a file -/

/-- Replacing a file's contents replaces those of that file only. -/
theorem Directory.bytesAt_put (d : Directory) (name other : String) (bs : Bytes) :
    (d.put name bs).bytesAt other = if other = name then bs else d.bytesAt other := by
  unfold bytesAt contents? put
  rw [lookup_change]
  split
  · simp [assemble]
  · rfl

namespace Site

/-- A step that adds to the file of a name, if anything, and nothing where
the log is another file. -/
structure Adds (logs : Prop) (name : String) (s s' : Site) : Prop extends Alongside s s' where
  bytes : ∃ more, s'.directory.bytesAt name = s.directory.bytesAt name ++ more ∧
    (¬ logs → more = [])

variable {logs : Prop} {name : String} {s s' s'' : Site}

theorem Spares.adds (h : Spares name s s') : Adds logs name s s' :=
  ⟨h.toAlongside, [], h.bytes.trans (List.append_nil _).symm, fun _ => rfl⟩

theorem Adds.trans (h : Adds logs name s s') (h' : Adds logs name s' s'') :
    Adds logs name s s'' := by
  obtain ⟨more, hbytes, hmore⟩ := h.bytes
  obtain ⟨more', hbytes', hmore'⟩ := h'.bytes
  refine ⟨h.toAlongside.trans h'.toAlongside, more ++ more', ?_, fun hlogs => ?_⟩
  · rw [hbytes', hbytes, List.append_assoc]
  · rw [hmore hlogs, hmore' hlogs, List.append_nil]

end Site

namespace Observer

variable {logs : Prop} {name : String} {s : Site}

/-- An observer that does no more to the file of a name. -/
def Adds (logs : Prop) (name : String) (s : Site) (o : Observer) : Prop :=
  ∀ e s', s.Alongside s' → s'.Adds logs name (o e s')

theorem adds_console : console.Adds logs name s := fun e s' hs => (spares_console e s' hs).adds

/-- A log file is added to, and no other file. -/
theorem adds_file {path : String} (hlogs : (s.directory.openToAppend path).1 = .ok name → logs) :
    (file path).Adds logs name s := by
  intro e s' hs
  by_cases hopen : (s.directory.openToAppend path).1 = .ok name
  · obtain ⟨halong, hbytes⟩ := s'.directory.openToAppend_spares path
    have hopen' := hs.directory.openToAppend_ok hopen
    unfold file
    rcases hout : s'.directory.openToAppend path with ⟨outcome, directory⟩
    rw [hout] at halong hbytes hopen'
    obtain rfl : outcome = .ok name := hopen'
    refine ⟨⟨halong.trans (Directory.alongside_change ..), rfl⟩,
      Bytes.ofString (toString s'.clock ++ " " ++ fileText e ++ "\n"), ?_,
      fun hnot => absurd (hlogs hopen) hnot⟩
    show (directory.append name _).bytesAt name = _
    rw [Directory.bytesAt_append, if_pos rfl, hbytes name]
  · exact (spares_file hopen e s' hs).adds

theorem adds_all {os : List Observer} (h : ∀ o ∈ os, o.Adds logs name s) :
    (all os).Adds logs name s := by
  intro e s' hs
  unfold all
  induction os generalizing s' with
  | nil => exact (Site.Spares.refl name s').adds
  | cons o os ih =>
    have hfirst := h o List.mem_cons_self e s' hs
    exact hfirst.trans (ih (fun o ho => h o (List.mem_cons_of_mem _ ho)) _
      (hs.trans hfirst.toAlongside))

end Observer

/-- The log file of the options leads to the file of a name. -/
def Options.LogsTo (o : Options) (d : Directory) (name : String) : Prop :=
  ∃ path, o.logFile = some path ∧ (d.openToAppend path).1 = .ok name

namespace Loader

variable {logs : Prop} {name : String} {s : Site} (l : Loader)

theorem adds_observers (hconsole : l.observer = .console) (name : String) (s : Site) :
    l.observers.Adds (l.options.LogsTo s.directory name) name s := by
  unfold observers
  cases hlog : l.options.logFile with
  | none => exact hconsole ▸ Observer.adds_console
  | some path =>
    refine Observer.adds_all fun o ho => ?_
    rcases List.mem_cons.mp ho with rfl | ho
    · exact hconsole ▸ Observer.adds_console
    · obtain rfl := List.mem_singleton.mp ho
      exact Observer.adds_file fun hopen => ⟨path, hlog, hopen⟩

/-- What a failed run says goes to its observers. -/
theorem adds_report (hobservers : l.observers.Adds logs name s) {s' : Site}
    (hs' : s.Alongside s') (e : LoadError) (summary : Summary) :
    s'.Adds logs name (l.report e summary s') := by
  unfold Loader.report
  obtain ⟨logged, hlogged, hadds⟩ : ∃ logged,
      (if e.isInterrupt then
        s'.warn ("load of " ++ l.inputName ++ " interrupted: " ++ e.message ++ "\n" ++ summary.text)
      else s'.fail ("load of " ++ l.inputName ++ " failed: " ++ e.message ++ "\n" ++ summary.text))
        = logged ∧ s'.Adds logs name logged := by
    refine ⟨_, rfl, ?_⟩
    split
    · exact (s'.spares_warn name _).adds
    · exact (s'.spares_fail name _).adds
  rw [hlogged]
  have hfailed := hadds.trans (hobservers (.failed l.context (Severity.of e) e summary) logged
    (hs'.trans hadds.toAlongside))
  dsimp only
  split
  · exact hfailed.trans (hobservers (.alerted l.context (Severity.of e) e summary) _
      (hs'.trans hfailed.toAlongside))
  · exact hfailed

/-- A run that cannot begin to read closes its writer in error mode and
says so. -/
theorem run_of_start_error {σ : Type} (w : Writer σ) {source : Source} {writer closed : σ}
    {s' : Site} {e : LoadError} {last : Except WriterError Counts}
    (hstart : RecordReader.start source l.options l.schema = .error e)
    (hclose : w.close writer true (l.observers (.started l.context) s) = (last, closed, s')) :
    ∃ summary, l.run w source writer s = (.error ⟨summary, e⟩, closed, l.report e summary s') := by
  have habandon : abandon w ⟨writer, l.rejects, l.observers (.started l.context) s⟩ = _ :=
    abandon_of_close hclose
  unfold run
  dsimp only
  rw [load_of_start_error hstart]
  dsimp only
  rw [habandon]
  exact ⟨_, rfl⟩

end Loader

namespace LocalWriter

/-- A writer over a file that nothing has been given to. -/
structure Idle (name : String) (w : LocalWriter) : Prop where
  medium : w.storage.medium = .file { name := name }
  opened : w.duplicates.file.opened = none
  pending : w.pending = []
  running : w.closed = false

variable {name other : String} {w : LocalWriter} {s : Site}

/-- Adding nothing to a file changes no bytes. -/
theorem spares_append_nil (s : Site) (name other : String) :
    s.Spares other { s with directory := s.directory.append name [] } := by
  refine ⟨⟨s.directory.alongside_change _ _, rfl⟩, ?_⟩
  show (s.directory.append name []).bytesAt other = s.directory.bytesAt other
  rw [Directory.bytesAt_append, List.append_nil]
  split
  · next h => rw [h]
  · rfl

/-- Closing such a writer in error mode does nothing, and neither does
letting go of it. -/
theorem Idle.close (h : w.Idle name) (s : Site) :
    ∃ last w', w.close true s = (last, w', s) ∧
      ∀ (other : String) (s' : Site), s'.Spares other (w'.release s').2 := by
  refine ⟨.ok w.duplicates.counts, { w with closed := true, slots := w.slots.clear }, ?_,
    fun other s' => ?_⟩
  · unfold LocalWriter.close
    rw [if_neg (by rw [h.running]; exact Bool.noConfusion)]
    dsimp only
    rw [flush_of_unopened h.opened]
    rfl
  · unfold release Storage.release
    dsimp only
    rw [h.medium]
    dsimp only
    rw [flush_of_unopened h.opened]
    exact spares_append_nil s' name other

/-- What is emptied before anything is written. -/
def emptied (o : Options) (name other : String) (bs : Bytes) : Bytes :=
  if o.truncate = true ∧ other = name then [] else bs

/-- The writer of a load that stores its rows itself. -/
theorem ofOptions_idle {o : Options} (hlocal : o.writer ≠ .parallel) (name : String) (s : Site) :
    ∃ w storage s', ofOptions o { medium := .file { name := name } } s = (.ok w, storage, s') ∧
      w.Idle name ∧ s.Alongside s' ∧
      ∀ other, s'.directory.bytesAt other = emptied o name other (s.directory.bytesAt other) := by
  have hstart : ∀ batch, ∃ w storage s',
      start { medium := .file { name := name } } (duplicatesFor o) batch o.truncate s
        = (.ok w, storage, s') ∧ w.Idle name ∧ s.Alongside s' ∧
      ∀ other, s'.directory.bytesAt other = emptied o name other (s.directory.bytesAt other) := by
    intro batch
    cases htruncate : o.truncate with
    | false =>
      refine ⟨_, _, _, rfl, ⟨rfl, rfl, rfl, rfl⟩, .refl s, fun other => ?_⟩
      rw [emptied, htruncate, if_neg (fun h => Bool.noConfusion h.1)]
    | true =>
      refine ⟨_, _, { s with directory := (s.directory.append name []).put name [] }, rfl,
        ⟨rfl, rfl, rfl, rfl⟩, ⟨?_, rfl⟩, fun other => ?_⟩
      · have happend : s.directory.Alongside (s.directory.append name []) :=
          s.directory.alongside_change name _
        have hput : (s.directory.append name []).Alongside
            ((s.directory.append name []).put name []) :=
          Directory.alongside_change _ name _
        exact happend.trans hput
      · show ((s.directory.append name []).put name []).bytesAt other = _
        rw [Directory.bytesAt_put, Directory.bytesAt_append, emptied, htruncate]
        by_cases hother : other = name <;> simp [hother]
  obtain ⟨w, storage, s', hstarted, h⟩ := hstart (match o.writer with
    | .buffered => some o.batchSize
    | _ => none)
  refine ⟨w, storage, s', ?_, h⟩
  unfold ofOptions
  cases hwriter : o.writer with
  | parallel => exact absurd hwriter hlocal
  | direct =>
    rw [hwriter] at hstarted
    dsimp only at hstarted ⊢
    rw [hstarted]
  | buffered =>
    rw [hwriter] at hstarted
    dsimp only at hstarted ⊢
    rw [hstarted]

end LocalWriter

/-! ## The command -/

namespace CommandLine

/-- What a load that has failed for its options, once it had opened its
output, has done to the files. -/
structure Refused (o : Options) (name : String) (s s' : Site) : Prop where
  /-- No other file has lost anything. -/
  others : ∀ other, other ≠ name → s.directory.bytesAt other <+: s'.directory.bytesAt other
  /-- The output has lost nothing if it was not to be emptied. -/
  kept : o.truncate = false → s.directory.bytesAt name <+: s'.directory.bytesAt name
  /-- If it was, it is empty, unless the log is written to it. -/
  emptied : o.truncate = true →
    (∀ path, o.logFile = some path → (s.directory.openToAppend path).1 ≠ .ok name) →
    s'.directory.bytesAt name = []

/-- Files of which one may have been emptied, and that were then only
added to. -/
theorem refused_of_adds {o : Options} {name : String} {s s₁ s' : Site}
    (hemptied : ∀ other, s₁.directory.bytesAt other
      = LocalWriter.emptied o name other (s.directory.bytesAt other))
    (hadds : ∀ other, s₁.Adds (o.LogsTo s.directory other) other s') : Refused o name s s' where
  others := fun other hother => by
    obtain ⟨more, hbytes, -⟩ := (hadds other).bytes
    rw [hbytes, hemptied, LocalWriter.emptied, if_neg fun h => hother h.2]
    exact List.prefix_append _ _
  kept := fun htruncate => by
    obtain ⟨more, hbytes, -⟩ := (hadds name).bytes
    rw [hbytes, hemptied, LocalWriter.emptied, htruncate, if_neg fun h => Bool.noConfusion h.1]
    exact List.prefix_append _ _
  emptied := fun htruncate hlog => by
    obtain ⟨more, hbytes, hmore⟩ := (hadds name).bytes
    rw [hbytes, hemptied, LocalWriter.emptied, if_pos ⟨htruncate, rfl⟩,
      hmore fun ⟨path, hpath, hopen⟩ => hlog path hpath hopen]
    rfl

/-- A run whose failure prints like one about options. -/
theorem isConfig_of_report {outcome : Except LoadFailure Summary} {s : Site} {text : String}
    (hexit : (report outcome s).exit = 1)
    (herrors : (report outcome s).errors.getLast?
      = some (Complaint.ofLoad (.config text)).text) :
    ∃ f, outcome = .error f ∧ f.error.isConfig = true := by
  cases outcome with
  | ok summary => cases hexit
  | error f =>
    have htext : (Complaint.ofLoad f.error).text = (Complaint.ofLoad (.config text)).text := by
      simpa [report, failed] using herrors
    cases hconfig : f.error.isConfig with
    | true => exact ⟨f, rfl, hconfig⟩
    | false => exact absurd (apart_load hconfig) (Complaint.not_apart htext)

/-- Opening an output fails only over the file. -/
theorem openAt_cases (path : String) (d : Directory) :
    (∃ cause, CsvFile.openAt path d = (.error (.io cause), (d.openToAppend path).2)) ∨
      ∃ name, (d.openToAppend path).1 = .ok name ∧
        CsvFile.openAt path d = (.ok { name := name }, (d.openToAppend path).2) := by
  unfold CsvFile.openAt
  rcases d.openToAppend path with ⟨cause | name, directory⟩
  · exact .inl ⟨cause, rfl⟩
  · exact .inr ⟨name, rfl, rfl⟩

variable {input output : String} {columns options : List String} {control : Option String}
  {e : Surroundings} {text : String} {loader : Loader}

/-- A load that stores its rows itself. -/
theorem runLocal_config (hobserver : loader.observer = .console)
    (hlocal : loader.options.writer ≠ .parallel)
    (hexit : (runLocal loader input output e).exit = 1)
    (herrors : (runLocal loader input output e).errors.getLast?
      = some (Complaint.ofLoad (.config text)).text) :
    ∃ name, (e.site.directory.openToAppend output).1 = .ok name ∧
      Refused loader.options name e.site (runLocal loader input output e).site := by
  rcases openAt_cases output e.site.directory with ⟨cause, hopen⟩ | ⟨name, hname, hopen⟩
  · -- the failure is one of the file
    have hrun : runLocal loader input output e = failed (.ofStorage (.io cause)) ""
        { e.site with directory := (e.site.directory.openToAppend output).2 } := by
      unfold runLocal
      rw [hopen]
    have htext : (Complaint.ofStorage (.io cause)).text
        = (Complaint.ofLoad (.config text)).text := by
      rw [hrun] at herrors
      simpa [failed] using herrors
    have hapart : Apart "storage io error: " := by decide +kernel
    exact absurd (hapart.append _) (Complaint.not_apart htext)
  · obtain ⟨halong, hspared⟩ := e.site.directory.openToAppend_spares output
    obtain ⟨w, storage, s₂, hbuilt, hidle, halong', hemptied⟩ :=
      LocalWriter.ofOptions_idle hlocal name
        { e.site with directory := (e.site.directory.openToAppend output).2 }
    rcases hrun : loader.run LocalWriter.writer (Source.bytes (inputSource input e s₂)) w s₂
      with ⟨outcome, w', s'⟩
    have hreport : runLocal loader input output e = report outcome (w'.release s').2 := by
      unfold runLocal
      rw [hopen]
      dsimp only
      rw [hbuilt]
      dsimp only
      rw [hrun]
    rw [hreport] at hexit herrors ⊢
    obtain ⟨f, rfl, hconfig⟩ := isConfig_of_report hexit herrors
    have hstart := Loader.start_of_run_config (congrArg Prod.fst hrun) hconfig
    obtain ⟨last, closed, hclose, hrelease⟩ :=
      hidle.close (loader.observers (.started loader.context) s₂)
    obtain ⟨summary, hended⟩ := loader.run_of_start_error LocalWriter.writer hstart hclose
    rw [hrun] at hended
    obtain ⟨rfl, rfl⟩ := Prod.mk.inj (Prod.mk.inj hended).2
    have hbytes : ∀ other, s₂.directory.bytesAt other
        = LocalWriter.emptied loader.options name other (e.site.directory.bytesAt other) := by
      intro other
      rw [hemptied]
      exact congrArg (LocalWriter.emptied _ name other) (hspared other)
    refine ⟨name, hname, refused_of_adds hbytes fun other => ?_⟩
    have hopened : e.site.Alongside
        { e.site with directory := (e.site.directory.openToAppend output).2 } := ⟨halong, rfl⟩
    have hbeside := hopened.trans halong'
    have hobservers := loader.adds_observers hobserver other e.site
    have hstarted := hobservers (.started loader.context) s₂ hbeside
    have htold := loader.adds_report hobservers (hbeside.trans hstarted.toAlongside) f.error summary
    exact (hstarted.trans htold).trans (hrelease other _).adds

theorem apart_readColumn {spec : String} {c : Complaint} (h : readColumn spec = .error c) :
    Apart c.message := by
  have hshape : Apart "column must be NAME:TYPE[:notnull], got \"" := by decide +kernel
  have htype : Apart "unknown column type \"" := by decide +kernel
  have hflag : Apart "unknown column flag \"" := by decide +kernel
  unfold readColumn at h
  dsimp only at h
  split at h
  · cases h
    exact (hshape.append _).append _
  · split at h
    · cases h
      exact (htype.append _).append _
    · split at h
      · cases h
      · split at h
        · cases h
        · cases h
          exact (hflag.append _).append _

theorem apart_readColumns {specs : List String} {c : Complaint}
    (h : readColumns specs = .error c) : Apart c.message := by
  induction specs with
  | nil => cases h
  | cons spec specs ih =>
    unfold readColumns at h
    split at h
    · next hspec =>
      cases h
      exact apart_readColumn hspec
    · cases hrest : readColumns specs with
      | error c' =>
        rw [hrest] at h
        cases h
        exact ih hrest
      | ok rest =>
        rw [hrest] at h
        cases h

theorem apart_checkInput {s : Site} {c : Complaint} (h : checkInput input s = .error c) :
    Apart c.message := by
  unfold checkInput at h
  split at h
  · cases h
  · split at h
    · cases h
      exact apart_load rfl
    · cases h

/-- What a load does once its options are good by themselves: it fails over
its columns or its input, or makes its run. -/
theorem load_cases {o : Options} (hoptions : loadOptions control options e.site = .ok o)
    (hlocal : o.writer ≠ .parallel) :
    (∃ c, Apart c.message ∧
        load input columns options control output e = failed c "" e.site) ∨
      ∃ loader : Loader, loader.options = o ∧ loader.observer = .console ∧
        load input columns options control output e = runLocal loader input output e := by
  unfold load
  rw [hoptions]
  dsimp only
  split
  · next c hcolumns => exact .inl ⟨c, apart_readColumns hcolumns, rfl⟩
  · split
    · next c hinput => exact .inl ⟨c, apart_checkInput hinput, rfl⟩
    · split
      · next hparallel => exact absurd hparallel hlocal
      · exact .inr ⟨_, rfl, rfl, rfl⟩
      · exact .inr ⟨_, rfl, rfl, rfl⟩

/-- **A load that fails for its options**, and does not hand its rows to
another process, has either changed nothing at all, or its options were
good by themselves and it had opened its output. Then every file still
has what it held, but an output that was to be emptied is empty. -/
theorem load_config (hexit : (load input columns options control output e).exit = 1)
    (herrors : (load input columns options control output e).errors.getLast?
      = some (Complaint.ofLoad (.config text)).text)
    (hlocal : ∀ o, loadOptions control options e.site = .ok o → o.writer ≠ .parallel) :
    match loadOptions control options e.site with
    | .error _ => (load input columns options control output e).site = e.site
    | .ok o => ∃ name, (e.site.directory.openToAppend output).1 = .ok name ∧
        Refused o name e.site (load input columns options control output e).site := by
  cases hoptions : loadOptions control options e.site with
  | error c =>
    dsimp only
    unfold load
    rw [hoptions]
    rfl
  | ok o =>
    rcases load_cases hoptions (hlocal o hoptions) with
      ⟨c, hapart, hload⟩ | ⟨loader, rfl, hobserver, hload⟩
    · have htext : c.text = (Complaint.ofLoad (.config text)).text := by
        rw [hload] at herrors
        simpa [failed] using herrors
      exact absurd hapart (Complaint.not_apart htext)
    · rw [hload] at hexit herrors ⊢
      exact runLocal_config hobserver (hlocal _ hoptions) hexit herrors

/-- A site with a record to load and a file that rows are to go to. -/
def stocked : Surroundings where
  site := { directory := .ofFiles [("in.csv", Bytes.ascii "1\n"), ("out.csv", Bytes.ascii "9\n")] }

/-- Options that are good by themselves, and name a column that the table
does not have. -/
def unfit : List String := ["TRUNCATE=YES", "FORCE_NOT_NULL=b"]

theorem load_config_unfit :
    (load "in.csv" ["a:int"] unfit none "out.csv" stocked).exit = 1 ∧
      match loadOptions none unfit stocked.site with
      | .error _ => (load "in.csv" ["a:int"] unfit none "out.csv" stocked).site = stocked.site
      | .ok o => ∃ name, (stocked.site.directory.openToAppend "out.csv").1 = .ok name ∧
          Refused o name stocked.site
            (load "in.csv" ["a:int"] unfit none "out.csv" stocked).site := by
  have hexit : (load "in.csv" ["a:int"] unfit none "out.csv" stocked).exit = 1 := by
    decide +kernel
  have herrors : (load "in.csv" ["a:int"] unfit none "out.csv" stocked).errors.getLast?
      = some (Complaint.ofLoad
        (.config "FORCE_NOT_NULL column \"b\" does not exist")).text := by
    decide +kernel
  have hwriter : (loadOptions none unfit stocked.site).toOption.map Options.writer
      = some .direct := by decide +kernel
  refine ⟨hexit, load_config hexit herrors fun o ho hparallel => ?_⟩
  rw [ho, Except.toOption, Option.map_some, hparallel] at hwriter
  cases hwriter

/-- The load has read nothing, and what the output held is lost. -/
theorem load_config_emptied :
    (load "in.csv" ["a:int"] unfit none "out.csv" stocked).exit = 1 ∧
      (load "in.csv" ["a:int"] unfit none "out.csv" stocked).errors.getLast?
        = some (Complaint.ofLoad
          (.config "FORCE_NOT_NULL column \"b\" does not exist")).text ∧
      ¬ stocked.site.directory.bytesAt "out.csv"
        <+: (load "in.csv" ["a:int"] unfit none "out.csv" stocked).site.directory.bytesAt
          "out.csv" := by
  decide +kernel

end CommandLine
end Intake
