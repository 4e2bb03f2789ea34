import ConfigCompiler.Entity.Kind
import ConfigCompiler.Text.Blank
import ConfigCompiler.Text.LetterCase

/-!
# Names and type identifiers

Entities are stored under names such as `acme.blog_post`: lower-case words joined
by underscores, in groups joined by dots.  Implementing types are referred to by
paths such as `acme::action::ExportAction`.

**Rules.**
* `isValidName`, `isTypeIdentifier`: the two grammars.
* `normalizeName`: how a declared name becomes a stored name.
* `nameOfType`: the name of an implementing type, without the ending of its kind.
* `deriveName`: the name of an entry key, whichever of the two it is.
* `humanize`: a label for a name.
-/

namespace ConfigCompiler

namespace Name

/-- A Latin letter without accents. -/
def isLatin (c : Char) : Bool := ('a' ≤ c && c ≤ 'z') || ('A' ≤ c && c ≤ 'Z')

/-- A digit from 0 to 9. -/
def isDigit (c : Char) : Bool := '0' ≤ c && c ≤ '9'

/-- A small Latin letter without accents. -/
def isSmall (c : Char) : Bool := 'a' ≤ c && c ≤ 'z'

/-- A character that a segment of a type identifier may start with. -/
def startsSegment (c : Char) : Bool := isLatin c || c == '_'

/-- A segment of a type identifier. -/
def isSegment : List Char → Bool
  | [] => false
  | c :: rest => startsSegment c && rest.all (fun c => startsSegment c || isDigit c)

/-- A group of a stored name. -/
def isGroup : List Char → Bool
  | [] => false
  | c :: rest => isSmall c && rest.all (fun c => isSmall c || isDigit c || c == '_')

/-- The first part of a list of parts gets one more character. -/
def pushFirst (c : Char) : List (List Char) → List (List Char)
  | [] => [[c]]
  | part :: rest => (c :: part) :: rest

/-- The parts between double colons. -/
def splitPath : List Char → List (List Char)
  | [] => [[]]
  | ':' :: ':' :: rest => [] :: splitPath rest
  | c :: rest => pushFirst c (splitPath rest)

/-- The parts between dots. -/
def splitDots : List Char → List (List Char)
  | [] => [[]]
  | c :: rest => if c = '.' then [] :: splitDots rest else pushFirst c (splitDots rest)

/-- What stands after the last double colon, if there is one. -/
def afterLastColons? : List Char → Option (List Char)
  | [] => none
  | c :: rest =>
      match afterLastColons? rest with
      | some tail => some tail
      | none =>
          match c, rest with
          | ':', ':' :: tail => some tail
          | _, _ => none

/-- Whether a capital after `prev` and before `next` starts a word: after a small
letter or a digit, or as the last of several capitals. -/
def startsWord (prev next : Option Char) : Bool :=
  match prev with
  | none => false
  | some p => isLowercase p || isDigit p || (isUppercase p && next.any isLowercase)

/-- Write one character of a declared name.  The text written so far is held in
reverse. -/
def writeChar (prev : Option Char) (c : Char) (next : Option Char) (written : List Char) :
    List Char :=
  if isUppercase c then
    (lowerChars c).reverse ++
      (if startsWord prev next && written.head? != some '_' && written.head? != some '.' then
        '_' :: written
      else written)
  else if c = '-' || isBlank c then
    if written.isEmpty || written.head? == some '_' then written else '_' :: written
  else if c = '_' then
    if written.head? == some '_' then written else '_' :: written
  else c :: written

/-- Write a declared name, character by character. -/
def writeChars (prev : Option Char) : List Char → List Char → List Char
  | [], written => written
  | c :: rest, written => writeChars (some c) rest (writeChar prev c rest.head? written)

/-- The normal form of a declared name. -/
def normalizeChars (cs : List Char) : List Char :=
  trimChars (· == '_') (writeChars none (trimChars isBlank cs) []).reverse

/-- The characters without an ending, unless nothing is left. -/
def withoutSuffix? (suffix cs : List Char) : Option (List Char) :=
  if suffix.isSuffixOf cs && suffix.length < cs.length then
    some (cs.take (cs.length - suffix.length))
  else none

end Name

open Name

/-- Whether a text denotes an implementing type: two or more segments joined by
double colons. -/
def isTypeIdentifier (text : String) : Bool :=
  let parts := splitPath text.toList
  decide (2 ≤ parts.length) && parts.all isSegment

/-- Whether a text is a stored name. -/
def isValidName (text : String) : Bool :=
  (splitDots text.toList).all isGroup

/-- The normal form of a declared name: words of camel case are separated, dashes
and white space become underscores, and all is small.  Dots are kept. -/
def normalizeName (raw : String) : String :=
  String.ofList (normalizeChars raw.toList)

/-- The last segment of a type identifier. -/
def shortTypeName (path : String) : String :=
  String.ofList ((afterLastColons? path.toList).getD path.toList)

/-- The name of an implementing type: its last segment, without the ending that is
usual for its kind. -/
def nameOfType (kind : EntityKind) (path : String) : String :=
  let short := (shortTypeName path).toList
  let stripped := kind.typeSuffixes.findSome? (fun suffix => withoutSuffix? suffix.toList short)
  String.ofList (normalizeChars (stripped.getD short))

/-- The name of an entry key. -/
def deriveName (kind : EntityKind) (key : String) : String :=
  if isTypeIdentifier key then nameOfType kind key else normalizeName key

/-- A label for a name: blanks for underscores and dots, the first letter capital. -/
def humanize (name : String) : String :=
  match trimChars isBlank (name.toList.map (fun c => if c = '_' || c = '.' then ' ' else c)) with
  | [] => ""
  | first :: rest => String.ofList (upperChars first ++ rest)

end ConfigCompiler
