import Intake.Error
import Intake.Text.Letters
/-!
# Directories

The files that a run reads and writes. A name is followed part by part
through folders (`Directory.way`); what it leads to at the end is a file,
a folder or nothing yet (`Directory.find`), and everything else is
reading, appending and emptying what is found.

Names that do not begin with a slash start from the root. The root is
itself inside folders, which names may step up to; a file that is not
below the root keeps its name from the top.
-/

namespace Intake

/-- Files and folders, seen from a root. -/
structure Directory where
  /-- The name of the root from the top. -/
  root : String := "/site"
  /-- Files in the order of creation, by their names below the root or
  else from the top. Of each there is what was added to it, latest first,
  so that adding a little to a long file costs little. -/
  files : List (String × List Bytes) := []
  /-- Folders, named in the same way, besides the root and those that it
  is in. -/
  folders : List String := []
  deriving Repr

/-- What a name leads to. -/
inductive Place where
  | file (name : String)
  | folder
  /-- No file, but one of this name can be made. -/
  | vacant (name : String)
  | unreachable (e : IoError)
  deriving DecidableEq, Repr

/-- Where the parts of a name lead before the last one is looked up. -/
inductive Way where
  /-- To a folder that the last part stays in or steps up to. -/
  | folder
  /-- To a folder in which the last part names something, perhaps with a
  slash after it. -/
  | into (place : List String) (last : String) (slash : Bool)
  | blocked (e : IoError)
  deriving DecidableEq, Repr

namespace Directory

/-- The greatest number of bytes of one part of a name. -/
def maxPart : Nat := 255

/-- A name is shorter than this number of bytes. -/
def maxName : Nat := 4096

/-- The contents of a file that was written in pieces, latest first. -/
def assemble (pieces : List Bytes) : Bytes := pieces.reverse.flatten

/-- A directory of files with their contents. -/
def ofFiles (files : List (String × Bytes)) : Directory :=
  { files := files.map fun (name, bs) => (name, [bs]) }

/-- The files with their contents. -/
def toFiles (d : Directory) : List (String × Bytes) :=
  d.files.map fun (name, pieces) => (name, assemble pieces)

/-- Whether there is a file of a name. -/
def hasFile (d : Directory) (name : String) : Bool := d.files.any fun f => f.1 == name

/-- The contents of a file. -/
def contents? (d : Directory) (name : String) : Option Bytes :=
  (d.files.lookup name).map assemble

/-- What stands between the slashes of a name. -/
def parts (name : String) : List String := (Text.splitAll '/' name.toList).map String.ofList

/-- A name made of parts. -/
def join (parts : List String) : String := String.intercalate "/" parts

/-- The folders from the top to the root. -/
def home (d : Directory) : List String := (parts d.root).filter (· != "")

/-- The folders from the top to where a name starts. -/
def start (d : Directory) (name : String) : List String :=
  if name.startsWith "/" then [] else d.home

/-- The name of a place: from the root, if it is below it. -/
def nameOf (d : Directory) (place : List String) : String :=
  if d.home.isPrefixOf place then join (place.drop d.home.length) else "/" ++ join place

/-- Whether a place is a folder. -/
def isFolder (d : Directory) (place : List String) : Bool :=
  place.isPrefixOf d.home || d.folders.contains (d.nameOf place)

/-- Whether a part names something; the others stay in a folder or step
up from it. -/
def isProper (part : String) : Bool := part != "" && part != "." && part != ".."

/-- The place that a part leads to from another place. -/
def step (here : List String) (part : String) : List String :=
  if isProper part then here ++ [part] else if part = ".." then here.dropLast else here

/-- Follows parts from a folder. -/
def follow (d : Directory) (here : List String) : List String → Way
  | [] => .folder
  | part :: rest =>
    let next := step here part
    if !isProper part then d.follow next rest
    else if rest.all (· == "") then .into next part (!rest.isEmpty)
    else if maxPart < part.utf8ByteSize then .blocked .nameTooLong
    else if d.isFolder next then d.follow next rest
    else if d.hasFile (d.nameOf next) then .blocked .notADirectory
    else .blocked .noSuchFile

/-- Follows a name. -/
def way (d : Directory) (name : String) : Way :=
  if name.toList.contains '\x00' then
    .blocked (.other "file name contained an unexpected NUL byte")
  else if name.isEmpty then .blocked .noSuchFile
  else if maxName ≤ name.utf8ByteSize then .blocked .nameTooLong
  else d.follow (d.start name) (parts name)

/-- What a name leads to. A slash after it asks for a folder. -/
def find (d : Directory) (name : String) : Place :=
  match d.way name with
  | .blocked e => .unreachable e
  | .folder => .folder
  | .into place last slash =>
    let name := d.nameOf place
    if maxPart < last.utf8ByteSize then .unreachable .nameTooLong
    else if d.isFolder place then .folder
    else if d.hasFile name then
      if slash then .unreachable .notADirectory else .file name
    else if slash then .unreachable .noSuchFile
    else .vacant name

/-- Changes the pieces of a file, or makes it from none. -/
def change (d : Directory) (name : String) (f : List Bytes → List Bytes) : Directory :=
  if d.hasFile name then
    { d with files := d.files.map fun file => if file.1 == name then (name, f file.2) else file }
  else { d with files := d.files ++ [(name, f [])] }

/-- Replaces the contents of a file, or makes it. -/
def put (d : Directory) (name : String) (bs : Bytes) : Directory := d.change name fun _ => [bs]

/-- Adds bytes at the end of a file, or makes it. -/
def append (d : Directory) (name : String) (bs : Bytes) : Directory :=
  d.change name fun pieces => bs :: pieces

/-- Opens a file to add to it, making it where there is none; the result
is its name in the directory. A slash after the name is an error whatever
the name leads to. -/
def openToAppend (d : Directory) (name : String) : Except IoError String × Directory :=
  match d.way name with
  | .into _ _ true => (.error .isDirectory, d)
  | _ =>
    match d.find name with
    | .file name => (.ok name, d)
    | .vacant name => (.ok name, d.put name [])
    | .folder => (.error .isDirectory, d)
    | .unreachable e => (.error e, d)

/-- Opens a file to read it. A folder can be opened, but not read: that
is the second result. -/
def openToRead (d : Directory) (name : String) : Except IoError (Except IoError Bytes) :=
  match d.find name with
  | .file name => .ok (.ok ((d.contents? name).getD []))
  | .vacant _ => .error .noSuchFile
  | .folder => .ok (.error .isDirectory)
  | .unreachable e => .error e

end Directory
end Intake
