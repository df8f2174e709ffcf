import Intake.CommandLine.Arguments
import Intake.Options.Draft
import Intake.Run.Loader
import Intake.Writer.Peers
/-!
# The program

What a command does at a site, and what it leaves on its streams. A load
writes the counts of its run on the output stream whether it succeeds or
not; a consumer writes its report there, which its load reads.
-/

namespace Intake.CommandLine

/-- What a command is given besides its words. -/
structure Surroundings where
  site : Site
  /-- What stands on the input stream. -/
  input : Bytes := []
  /-- Whether a process exists. -/
  lives : Nat → Bool := fun _ => false

/-- What a command leaves behind. -/
structure Result where
  exit : Nat
  output : String := ""
  /-- Lines on the error stream, the last one of several lines where the
  command failed. -/
  errors : List String := []
  site : Site

/-- The program's name and version. -/
def versionText : String := "bulkload 0.1.0\n"

/-- What the words of a command line may be. -/
def usageText : String :=
  "Usage: bulkload load [--input FILE] --column NAME:TYPE[:notnull]... [-o KEY=VALUE]... "
    ++ "[--control FILE] --output FILE\n"

/-- A command that fails with a complaint. -/
def failed (c : Complaint) (output : String) (s : Site) : Result :=
  { exit := 1, output := output, errors := s.errors ++ [c.text], site := s }

/-- The pairs of a control file. -/
def controlPairs (control : Option String) (s : Site) : Except Complaint (List (String × String)) :=
  match control with
  | none => .ok []
  | some path =>
    let title := "reading control file " ++ path
    match s.directory.openToRead path with
    | .error e => .error ((Complaint.ofIo e).within title)
    | .ok (.error e) => .error ((Complaint.ofIo e).within title)
    | .ok (.ok bs) =>
      match Utf8.decode? bs with
      | none => .error ((Complaint.plain "stream did not contain valid UTF-8").within title)
      | some text => readControl text

/-- The options of a load: those of the control file, then those of the
command line. -/
def loadOptions (control : Option String) (options : List String) (s : Site) :
    Except Complaint Options :=
  match controlPairs control s with
  | .error c => .error c
  | .ok first =>
    match readPairs options with
    | .error c => .error c
    | .ok second =>
      match Options.ofPairs (first ++ second) with
      | .error e => .error (.ofLoad e)
      | .ok o => .ok o

/-- Whether an input can be opened. -/
def checkInput (input : String) (s : Site) : Except Complaint Unit :=
  if input = "-" then .ok ()
  else
    match s.directory.openToRead input with
    | .error e => .error (.ofLoad (.io e))
    | .ok _ => .ok ()

/-- The bytes of an input that can be opened. -/
def inputSource (input : String) (e : Surroundings) (s : Site) : ByteSource :=
  if input = "-" then { rest := e.input }
  else
    match s.directory.openToRead input with
    | .ok (.ok bs) => { rest := bs }
    | .ok (.error cause) => { rest := [], failure := some cause.message }
    | .error cause => { rest := [], failure := some cause.message }

/-- What is left of a run. -/
def report (outcome : Except LoadFailure Summary) (s : Site) : Result :=
  match outcome with
  | .ok summary => { exit := 0, output := summary.text ++ "\n", errors := s.errors, site := s }
  | .error f => failed (.ofLoad f.error) (f.summary.text ++ "\n") s

/-- A run whose rows a process stores. -/
def runParallel (loader : Loader) (input output : String) (e : Surroundings) : Result :=
  let o := loader.options
  match Segment.create 0 0 o.queueSize with
  | .error cause => failed (.ofWriter (.queue cause)) "" e.site
  | .ok queue =>
    match ProcessPeer.start (ConsumerSettings.ofOptions o output) e.site with
    | (peer, s) =>
      let w := ParallelWriter.start queue peer o.queueWriteTimeout o.queueMaxStalls
      let source := Source.bytes (inputSource input e s)
      match loader.run (ParallelWriter.writer ProcessPeer.peer) source w s with
      | (outcome, _, s) => report outcome s

/-- A run that stores its rows itself. -/
def runLocal (loader : Loader) (input output : String) (e : Surroundings) : Result :=
  match CsvFile.openAt output e.site.directory with
  | (.error cause, directory) =>
    failed (.ofStorage cause) "" { e.site with directory := directory }
  | (.ok file, directory) =>
    let s := { e.site with directory := directory }
    match LocalWriter.ofOptions loader.options { medium := .file file } s with
    | (.error cause, _, s) => failed (.ofLoad cause) "" s
    | (.ok w, _, s) =>
      let source := Source.bytes (inputSource input e s)
      match loader.run LocalWriter.writer source w s with
      | (outcome, w, s) =>
        match w.release s with
        | (_, s) => report outcome s

/-- Loads an input. -/
def load (input : String) (columns options : List String) (control : Option String)
    (output : String) (e : Surroundings) : Result :=
  match loadOptions control options e.site with
  | .error c => failed c "" e.site
  | .ok o =>
    match readColumns columns with
    | .error c => failed c "" e.site
    | .ok columns =>
      match checkInput input e.site with
      | .error c => failed c "" e.site
      | .ok () =>
        let loader : Loader :=
          { options := o, schema := ⟨columns⟩, observer := .console, inputName := input }
        match o.writer with
        | .parallel => runParallel loader input output e
        | .direct => runLocal loader input output e
        | .buffered => runLocal loader input output e

/-- The folder in which queues are looked for. -/
def queueFolder : String := "/dev/shm"

/-- Stores the rows of a queue, from its segment's file on. The file
follows what is taken off the queue. -/
def consumeQueue (key : Nat) (settings : ConsumerSettings) (folder : String) (e : Surroundings) :
    Report × Site :=
  let path := folder ++ "/" ++ Segment.fileName key
  match e.site.directory.find path with
  | .file name =>
    match Segment.ofFile key e.lives (e.site.directory.contents? name) with
    | .error cause => (.failed (.queue cause), e.site)
    | .ok queue =>
      match settings.build e.site with
      | (.error cause, s) => (.failed cause, s)
      | (.ok w, s) =>
        let c := Consumption.settle LocalWriter.writer ⟨{ writer := w }, queue, s⟩
        match c.consumer.writer.release c.site with
        | (_, s) =>
          (c.consumer.report.getD (.failed .peerGone),
            { s with directory := s.directory.put name c.queue.encode })
  | .folder => (.failed (.queue (.io .isDirectory)), e.site)
  | .vacant _ => (.failed (.queue (.io .noSuchFile)), e.site)
  | .unreachable cause => (.failed (.queue (.io cause)), e.site)

/-- The reading side of a parallel load. -/
def consume (key : Nat) (settings : String) (folder : Option String) (e : Surroundings) : Result :=
  match ConsumerSettings.ofText? (Bytes.ofString settings) with
  | none =>
    failed ((Complaint.plain "not a configuration").within "parsing consumer configuration") ""
      e.site
  | some settings =>
    match consumeQueue key settings (folder.getD queueFolder) e with
    | (report, s) =>
      let output := report.toJson.text ++ "\n"
      match report.error with
      | some cause => failed (.ofWriter cause) output s
      | none => { exit := 0, output := output, errors := s.errors, site := s }

/-- What the words of a command line do. -/
def run (words : List String) (e : Surroundings) : Result :=
  match readCommand words with
  | .error .usage => { exit := 2, errors := [usageText], site := e.site }
  | .error .help => { exit := 0, output := usageText, site := e.site }
  | .ok .version => { exit := 0, output := versionText, site := e.site }
  | .ok (.load input columns options control output) => load input columns options control output e
  | .ok (.consume key settings folder) => consume key settings folder e

/-- The files that the options of a load name. -/
def optionFiles (o : Options) : List String :=
  (o.parseBadFile.toList ++ o.duplicateBadFile.toList) ++ o.logFile.toList

/-- The files that a command may read or write, as far as they are known
at a site: those that options name are known once a control file is. -/
def namedFiles (words : List String) (s : Site) : List String :=
  match readCommand words with
  | .ok (.load input _ options control output) =>
    let named := [input, output].filter (· != "-") ++ control.toList
    match loadOptions control options s with
    | .ok o => named ++ optionFiles o
    | .error _ => named
  | .ok (.consume key settings folder) =>
    let segment := folder.getD queueFolder ++ "/" ++ Segment.fileName key
    match ConsumerSettings.ofText? (Bytes.ofString settings) with
    | some c => segment :: c.output :: c.duplicateBadFile.toList
    | none => [segment]
  | _ => []

/-- Whether a command reads the input stream. -/
def readsStream (words : List String) : Bool :=
  match readCommand words with
  | .ok (.load input _ _ _ _) => input == "-"
  | _ => false

end Intake.CommandLine
