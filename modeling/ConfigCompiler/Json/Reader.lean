import ConfigCompiler.Json.Document
import ConfigCompiler.Json.NumberText
import ConfigCompiler.Text.Hexadecimal

/-!
# Reading JSON

`Json.read?` reads a whole text.  Blank space may stand between the tokens and at
both ends; nothing else may follow the document.

**Recursion.**  A reader answers what it read and the rest of the text.  The nested
readers count down from twice the length of the text; each step takes a character.
-/

namespace ConfigCompiler

namespace Json

/-- The blank space of JSON. -/
def isSpace (c : Char) : Bool := c == ' ' || c == '\n' || c == '\t' || c == '\r'

/-- Drop blank space. -/
def skipSpace (cs : List Char) : List Char := cs.dropWhile isSpace

/-- A digit from 0 to 9. -/
def isDecimalDigit (c : Char) : Bool := '0' ≤ c && c ≤ '9'

/-- The digits at the start, at least one. -/
def readDigits? (cs : List Char) : Option (List Char × List Char) :=
  match cs.takeWhile isDecimalDigit with
  | [] => none
  | digits => some (digits, cs.dropWhile isDecimalDigit)

/-- The digits before the point: no zero in front of others. -/
def readWhole? (cs : List Char) : Option (List Char × List Char) :=
  match readDigits? cs with
  | some ('0' :: _ :: _, _) => none
  | answer => answer

/-- A point and digits, if there is a point. -/
def readFraction? (cs : List Char) : Option (Option (List Char) × List Char) :=
  match cs with
  | '.' :: rest => (readDigits? rest).map (fun p => (some p.1, p.2))
  | _ => some (none, cs)

/-- An exponent, if its mark follows. -/
def readExponent? (cs : List Char) : Option (Option (Bool × List Char) × List Char) :=
  match cs with
  | [] => some (none, cs)
  | c :: rest =>
      if c = 'e' || c = 'E' then
        match rest with
        | '-' :: rest => (readDigits? rest).map (fun p => (some (true, p.1), p.2))
        | '+' :: rest => (readDigits? rest).map (fun p => (some (false, p.1), p.2))
        | rest => (readDigits? rest).map (fun p => (some (false, p.1), p.2))
      else some (none, cs)

/-- A number without its sign. -/
def readUnsigned? (negative : Bool) (cs : List Char) : Option (NumberText × List Char) := do
  let (whole, cs) ← readWhole? cs
  let (fraction, cs) ← readFraction? cs
  let (exponent, cs) ← readExponent? cs
  return (⟨negative, whole, fraction, exponent⟩, cs)

/-- A number. -/
def readNumber? (cs : List Char) : Option (NumberText × List Char) :=
  match cs with
  | '-' :: rest => readUnsigned? true rest
  | _ => readUnsigned? false cs

/-- The value of four hexadecimal digits. -/
def hexWord? (a b c d : Char) : Option Nat := do
  return (((← hexValue? a) * 16 + (← hexValue? b)) * 16 + (← hexValue? c)) * 16 + (← hexValue? d)

/-- The character that an escape of one letter stands for. -/
def simpleEscape? (c : Char) : Option Char :=
  if c = '"' || c = '\\' || c = '/' then some c
  else if c = 'b' then some (Char.ofNat 0x08)
  else if c = 'f' then some (Char.ofNat 0x0C)
  else if c = 'n' then some '\n'
  else if c = 'r' then some '\r'
  else if c = 't' then some '\t'
  else none

/-- The pieces of a string up to the closing quote: code points, and the words of
escapes with four digits. -/
def readPieces? : List Char → Option (List (Sum Char Nat) × List Char)
  | [] => none
  | '"' :: rest => some ([], rest)
  | '\\' :: 'u' :: a :: b :: c :: d :: rest =>
      match hexWord? a b c d, readPieces? rest with
      | some w, some (pieces, rest) => some (.inr w :: pieces, rest)
      | _, _ => none
  | '\\' :: e :: rest =>
      match simpleEscape? e, readPieces? rest with
      | some c, some (pieces, rest) => some (.inl c :: pieces, rest)
      | _, _ => none
  | c :: rest =>
      if c = '\\' || c.toNat < 0x20 then none
      else
        match readPieces? rest with
        | some (pieces, rest) => some (.inl c :: pieces, rest)
        | none => none

/-- Whether a word is the first half of a pair. -/
def isHighSurrogate (w : Nat) : Bool := 0xD800 ≤ w && w ≤ 0xDBFF

/-- Whether a word is the second half of a pair. -/
def isLowSurrogate (w : Nat) : Bool := 0xDC00 ≤ w && w ≤ 0xDFFF

/-- The characters that pieces stand for; none if half a pair is among them. -/
def joinPieces? : List (Sum Char Nat) → Option (List Char)
  | [] => some []
  | .inl c :: rest => (joinPieces? rest).map (c :: ·)
  | .inr high :: .inr low :: rest =>
      if isHighSurrogate high then
        if isLowSurrogate low then
          (joinPieces? rest).map
            (Char.ofNat (0x10000 + (high - 0xD800) * 0x400 + (low - 0xDC00)) :: ·)
        else none
      else if isLowSurrogate high then none
      else (joinPieces? (.inr low :: rest)).map (Char.ofNat high :: ·)
  | .inr w :: rest =>
      if isHighSurrogate w || isLowSurrogate w then none
      else (joinPieces? rest).map (Char.ofNat w :: ·)

/-- A string after its opening quote. -/
def readString? (cs : List Char) : Option (Option String × List Char) :=
  (readPieces? cs).map (fun p => ((joinPieces? p.1).map String.ofList, p.2))

mutual

/-- A document, after blank space. -/
def readDocument? : Nat → List Char → Option (Document × List Char)
  | 0, _ => none
  | fuel + 1, cs =>
      match skipSpace cs with
      | 'n' :: 'u' :: 'l' :: 'l' :: rest => some (.null, rest)
      | 't' :: 'r' :: 'u' :: 'e' :: rest => some (.bool true, rest)
      | 'f' :: 'a' :: 'l' :: 's' :: 'e' :: rest => some (.bool false, rest)
      | '"' :: rest => (readString? rest).map (fun p => (.string p.1, p.2))
      | '[' :: rest =>
          match skipSpace rest with
          | ']' :: rest => some (.array [], rest)
          | rest => (readItems? fuel rest).map (fun p => (.array p.1, p.2))
      | '{' :: rest =>
          match skipSpace rest with
          | '}' :: rest => some (.object [], rest)
          | rest => (readFields? fuel rest).map (fun p => (.object p.1, p.2))
      | cs => (readNumber? cs).map (fun p => (.number p.1.number?, p.2))

/-- Items, at least one, up to the closing bracket. -/
def readItems? : Nat → List Char → Option (List Document × List Char)
  | 0, _ => none
  | fuel + 1, cs =>
      match readDocument? fuel cs with
      | none => none
      | some (d, cs) =>
          match skipSpace cs with
          | ',' :: cs => (readItems? fuel cs).map (fun p => (d :: p.1, p.2))
          | ']' :: cs => some ([d], cs)
          | _ => none

/-- Fields, at least one, up to the closing brace. -/
def readFields? : Nat → List Char → Option (List (Option String × Document) × List Char)
  | 0, _ => none
  | fuel + 1, cs =>
      match skipSpace cs with
      | '"' :: cs =>
          match readString? cs with
          | none => none
          | some (key, cs) =>
              match skipSpace cs with
              | ':' :: cs =>
                  match readDocument? fuel cs with
                  | none => none
                  | some (d, cs) =>
                      match skipSpace cs with
                      | ',' :: cs => (readFields? fuel cs).map (fun p => ((key, d) :: p.1, p.2))
                      | '}' :: cs => some ([(key, d)], cs)
                      | _ => none
              | _ => none
      | _ => none

end

/-- The document that a whole text holds. -/
def read? (text : String) : Option Document :=
  let cs := text.toList
  match readDocument? (2 * cs.length + 2) cs with
  | some (d, rest) => if (skipSpace rest).isEmpty then some d else none
  | none => none

end Json

end ConfigCompiler
