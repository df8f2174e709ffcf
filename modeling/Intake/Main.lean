import Intake.CommandLine.Program
/-!
# The command

Brings the files that a command names into a directory, lets the command
act on it, prints what it leaves on its streams, and writes the files
that it has changed.
-/

namespace Intake.Command

/-- Everything that stands on a stream. -/
partial def readAll (stream : IO.FS.Stream) (done : ByteArray) : IO ByteArray := do
  let piece ← stream.read 65536
  if piece.isEmpty then return done
  readAll stream (done ++ piece)

/-- Whether a name leads to a folder. -/
def isFolder (name : String) : IO Bool := do
  try (← IO.FS.realPath name).isDir
  catch _ => return false

/-- The name in a directory of what a name leads to. -/
def keyOf (d : Directory) (name : String) : String :=
  d.nameOf ((Directory.parts name).foldl Directory.step (d.start name))

/-- The names that lead to a name, outermost first, and the name itself. -/
def wayTo (name : String) : List String :=
  let parts := Directory.parts name
  (List.range (parts.length + 1)).map fun n => Directory.join (parts.take n)

/-- The directory with a file and the folders on the way to it. -/
def fetch (d : Directory) (name : String) : IO Directory := do
  let mut d := d
  for step in wayTo name do
    if ← isFolder step then
      d := { d with folders := keyOf d step :: d.folders }
  try return d.put (keyOf d name) (← IO.FS.readBinFile name).toList
  catch _ => return d

/-- The directory with all files of a list. -/
def fetchAll (names : List String) (root : String) : IO Directory :=
  names.foldlM fetch { root := root }

/-- Brings a file on disk to what a directory says of it. -/
def store (before after : Directory) (name : String) : IO Unit := do
  let key := keyOf after name
  let new := after.contents? key
  if before.contents? key != new then IO.FS.writeBinFile name ⟨(new.getD []).toArray⟩

/-- The numbers of the processes there are. -/
def processes : IO (List Nat) := do
  try
    let entries ← (← IO.FS.realPath "/proc").readDir
    return entries.toList.filterMap fun e => e.fileName.toNat?
  catch _ => return []

/-- Seconds since 1970: when the machine started, and how long ago that
was. -/
def now : IO Nat := do
  try
    let started := ((← IO.FS.readFile "/proc/stat").splitOn "\n").findSome? fun line =>
      match line.splitOn " " with
      | ["btime", n] => n.toNat?
      | _ => none
    let since := ((← IO.FS.readFile "/proc/uptime").splitOn ".").head?.bind String.toNat?
    return started.getD 0 + since.getD 0
  catch _ => return 0

/-- Carries out a command. -/
def carryOut (words : List String) : IO UInt32 := do
  let root := toString (← IO.currentDir)
  let first ← fetchAll (CommandLine.namedFiles words {}) root
  let names := CommandLine.namedFiles words { directory := first }
  let before ← fetchAll names root
  let input ← if CommandLine.readsStream words then readAll (← IO.getStdin) .empty else pure .empty
  let alive ← processes
  let r := CommandLine.run words
    { site := { directory := before, clock := ← now }, input := input.toList,
      lives := alive.contains }
  names.forM (store before r.site.directory)
  IO.print r.output
  for line in r.errors do IO.eprintln line
  return r.exit.toUInt32

end Intake.Command

/-- Runs the command that the words ask for. -/
def main (words : List String) : IO UInt32 := Intake.Command.carryOut words
