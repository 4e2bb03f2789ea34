import ConfigCompiler.Data.SortedMap
import ConfigCompiler.Storage.Path

/-!
# Files

A `Disk` holds directories and files by location.  Paths are followed part by part
from the root; every part but the last has to be a directory.

**Operations.**  `pathExists`, `readText?`, `writeFile?`, `makeDirs`, `saveFile` and
`removeFile`.  Writing needs the directory to be there; making directories makes all of them,
and leaves those made when one cannot be.
-/

namespace ConfigCompiler

/-- What stands at a location. -/
inductive DiskNode where
  | directory
  | file (bytes : List UInt8)
  /-- A file that takes whatever is written and holds nothing. -/
  | sink
deriving DecidableEq

/-- Directories and files by location. -/
structure Disk where
  nodes : SortedMap DiskNode

namespace Disk

/-- A location: the names on the way from the root. -/
abbrev Location := List String

/-- The disk that holds nothing but its root. -/
def empty : Disk := ⟨∅⟩

/-- The text a location is stored under. -/
def locationKey (location : Location) : String := "/".intercalate location

/-- What stands at a location; the root is a directory. -/
def node? (d : Disk) (location : Location) : Option DiskNode :=
  if location.isEmpty then some .directory else d.nodes.get? (locationKey location)

/-- Whether a directory stands at a location. -/
def isDirectory (d : Disk) (location : Location) : Bool :=
  match d.node? location with
  | some .directory => true
  | _ => false

/-- Follow one part of a path from a directory. -/
def follow? (d : Disk) (location : Location) (part : String) : Option Location :=
  if d.isDirectory location && Path.isName part then
    if Path.isSelf part then some location
    else if part = ".." then some location.dropLast
    else some (location ++ [part])
  else none

/-- The location of a path. -/
def locate? (d : Disk) (path : String) : Option Location :=
  if Path.isUsable path then (Path.parts path).foldlM d.follow? [] else none

/-- What a path leads to. -/
def lookup? (d : Disk) (path : String) : Option DiskNode :=
  (d.locate? path).bind d.node?

/-- Whether a path leads to something. -/
def pathExists (d : Disk) (path : String) : Bool := (d.lookup? path).isSome

/-- The text of the file that a path leads to. -/
def readText? (d : Disk) (path : String) : Option String :=
  match d.lookup? path with
  | some (.file bytes) => String.fromUTF8? ⟨bytes.toArray⟩
  | some .sink => some ""
  | _ => none

/-- Put something at a location. -/
def put (d : Disk) (location : Location) (n : DiskNode) : Disk :=
  ⟨d.nodes.insert (locationKey location) n⟩

/-- Follow one part of a path, making a directory of it if nothing is there. -/
def makeDir? (state : Disk × Location) (part : String) : Option (Disk × Location) := do
  let location ← state.1.follow? state.2 part
  match state.1.node? location with
  | none => return (state.1.put location .directory, location)
  | some .directory => return (state.1, location)
  | some _ => none

/-- Make the directories of a list of parts, from a location on.  The answer is the disk and
whether all of them are there; those made stay. -/
def makeDirsFrom (d : Disk) (location : Location) : List String → Disk × Bool
  | [] => (d, true)
  | part :: rest =>
      match makeDir? (d, location) part with
      | some (made, inner) => made.makeDirsFrom inner rest
      | none => (d, false)

/-- Make the directories of a list of parts, from the root; none if their path is not
usable. -/
def makeDirs (d : Disk) (parts : List String) : Disk × Bool :=
  if Path.isUsable (Path.ofParts parts) then d.makeDirsFrom [] parts else (d, false)

/-- Write a file; its directory has to be there. -/
def writeFile? (d : Disk) (path : String) (bytes : List UInt8) : Option Disk :=
  match d.locate? path with
  | none => none
  | some location =>
      match d.node? location with
      | some .directory => none
      | some .sink => some d
      | _ => some (d.put location (.file bytes))

/-- Make the directories that a path stands in, if it stands in one. -/
def makeParents (d : Disk) (path : String) : Disk × Bool :=
  match Path.parentParts? path with
  | none => (d, true)
  | some parent => d.makeDirs parent

/-- Write a file and make the directories it stands in.  The answer is the disk and whether
the file is written; directories stay even if it is not. -/
def saveFile (d : Disk) (path : String) (bytes : List UInt8) : Disk × Bool :=
  let (made, complete) := d.makeParents path
  if complete then
    match made.writeFile? path bytes with
    | some written => (written, true)
    | none => (made, false)
  else (made, false)

/-- Remove the file that a path leads to.  Directories stay. -/
def removeFile (d : Disk) (path : String) : Disk :=
  match d.locate? path with
  | some location =>
      if d.isDirectory location then d else ⟨d.nodes.erase (locationKey location)⟩
  | none => d

end Disk

end ConfigCompiler
