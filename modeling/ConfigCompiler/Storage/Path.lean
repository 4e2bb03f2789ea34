/-!
# Paths

A path is a text of parts separated by slashes.  Joining keeps the parts as they
are; nothing is simplified.

**Limits.**  A path has at most `maxPathSize` bytes and holds no zero character, or it
leads nowhere; a part of it has at most `maxPartSize` bytes.
-/

namespace ConfigCompiler

namespace Path

/-- Whether a path starts at the root of the file system. -/
def isAbsolute (path : String) : Bool := path.toList.head? == some '/'

/-- A path taken from another one.  An absolute path stands for itself; a slash is put
between unless the first path is empty or ends in one. -/
def join (base path : String) : String :=
  if isAbsolute path then path
  else if base.isEmpty || base.toList.getLast? == some '/' then base ++ path
  else base ++ "/" ++ path

/-- The first part gets one more character. -/
def pushPart (c : Char) : List (List Char) → List (List Char)
  | [] => [[c]]
  | part :: rest => (c :: part) :: rest

/-- The texts between slashes. -/
def splitSlashes : List Char → List (List Char)
  | [] => [[]]
  | c :: rest => if c = '/' then [] :: splitSlashes rest else pushPart c (splitSlashes rest)

/-- The parts of a path, empty ones included. -/
def parts (path : String) : List String := (splitSlashes path.toList).map String.ofList

/-- Whether a part stands for the directory it is in. -/
def isSelf (part : String) : Bool := part == "" || part == "."

/-- The greatest number of bytes of a part. -/
def maxPartSize : Nat := 255

/-- The greatest number of bytes of a path. -/
def maxPathSize : Nat := 4095

/-- Whether a part is short enough to be the name of something. -/
def isName (part : String) : Bool := decide (part.utf8ByteSize ≤ maxPartSize)

/-- Whether a path can lead anywhere. -/
def isUsable (path : String) : Bool :=
  decide (path.utf8ByteSize ≤ maxPathSize) && path.toList.all (fun c => c.toNat != 0)

/-- The path of a list of parts, from the root. -/
def ofParts (parts : List String) : String := "/" ++ "/".intercalate parts

/-- The parts of the directory that a path stands in, if there is one. -/
def parentParts? (path : String) : Option (List String) :=
  match ((parts path).filter (fun part => !isSelf part)).dropLast with
  | [] => if isAbsolute path then some [] else none
  | parent => some parent

end Path

end ConfigCompiler
