import ConfigCompiler.Number.Binary64
import ConfigCompiler.Text.Hexadecimal
import ConfigCompiler.Toml.DateTime
import ConfigCompiler.Toml.Table

/-!
# Reading TOML

`Toml.read?` reads a whole text into the fields of its root table.  It knows
tables and arrays of tables, dotted keys, inline tables, arrays, strings of all four
sorts, integers, decimals, booleans, dates and times, and comments.  Inline tables may
go over several lines.

**Limits.**  Arrays and inline tables are nested at most `maxLevels` deep, and a key has
at most so many parts.

**Recursion.**  Readers answer what they read and the rest of the text.  Nested ones
count down from the length of the text.
-/

namespace ConfigCompiler

namespace Toml

/-- A blank or a tab. -/
def isGap (c : Char) : Bool := c == ' ' || c == '\t'

/-- Drop blanks and tabs. -/
def skipGap (cs : List Char) : List Char := cs.dropWhile isGap

/-- Whether a character may stand in a comment or a string: no control but the tab. -/
def isPlain (c : Char) : Bool := c == '\t' || (0x20 ≤ c.toNat && c.toNat != 0x7F)

/-- Drop the end of a line. -/
def newline? : List Char → Option (List Char)
  | '\n' :: rest => some rest
  | '\r' :: '\n' :: rest => some rest
  | _ => none

/-- Drop a comment, if there is one. -/
def skipComment (cs : List Char) : List Char :=
  match cs with
  | '#' :: rest => rest.dropWhile isPlain
  | _ => cs

/-- Drop the rest of a line that holds nothing more. -/
def endOfLine? (cs : List Char) : Option (List Char) :=
  match skipComment (skipGap cs) with
  | [] => some []
  | cs => newline? cs

/-- Drop blanks, comments and ends of lines. -/
def skipLines : Nat → List Char → List Char
  | 0, cs => cs
  | fuel + 1, cs =>
      let cs := skipComment (skipGap cs)
      match newline? cs with
      | some rest => skipLines fuel rest
      | none => cs

/-- The character that an escape of one letter stands for. -/
def simpleEscape? (c : Char) : Option Char :=
  if c = '"' || c = '\\' then some c
  else if c = 'b' then some (Char.ofNat 0x08)
  else if c = 't' then some '\t'
  else if c = 'n' then some '\n'
  else if c = 'f' then some (Char.ofNat 0x0C)
  else if c = 'r' then some '\r'
  else if c = 'e' then some (Char.ofNat 0x1B)
  else none

/-- The character of a code point in hexadecimal digits. -/
def hexChar? (digits : List Char) : Option Char := do
  let code ← digits.foldlM (fun n c => do return n * 16 + (← hexValue? c)) 0
  if code.isValidChar then some (Char.ofNat code) else none

/-- How many hexadecimal digits follow the letter of an escape. -/
def hexWidth? (c : Char) : Option Nat :=
  if c = 'x' then some 2 else if c = 'u' then some 4 else if c = 'U' then some 8 else none

/-- An escape after its backslash. -/
def readEscape? (cs : List Char) : Option (Char × List Char) :=
  match cs with
  | [] => none
  | c :: rest =>
      match hexWidth? c with
      | some width =>
          if (rest.take width).length = width then
            (hexChar? (rest.take width)).map (fun c => (c, rest.drop width))
          else none
      | none => (simpleEscape? c).map (fun c => (c, rest))

/-- A string of one line in double quotes, after the quote. -/
def readBasic? : Nat → List Char → Option (List Char × List Char)
  | 0, _ => none
  | fuel + 1, cs =>
      match cs with
      | '"' :: rest => some ([], rest)
      | '\\' :: rest =>
          match readEscape? rest with
          | none => none
          | some (c, rest) => (readBasic? fuel rest).map (fun p => (c :: p.1, p.2))
      | c :: rest =>
          if isPlain c then (readBasic? fuel rest).map (fun p => (c :: p.1, p.2)) else none
      | [] => none

/-- A string of one line in single quotes, after the quote. -/
def readLiteral? : List Char → Option (List Char × List Char)
  | [] => none
  | '\'' :: rest => some ([], rest)
  | c :: rest =>
      if isPlain c then
        match readLiteral? rest with
        | some (cs, rest) => some (c :: cs, rest)
        | none => none
      else none

/-- The end of a string in triple quotes: up to two quotes belong to the string. -/
def closing? (quote : Char) (cs : List Char) : Option (List Char × List Char) :=
  let quotes := cs.takeWhile (· == quote)
  if quotes.length < 3 then none
  else
    let own := min (quotes.length - 3) 2
    some (List.replicate own quote, cs.drop (own + 3))

/-- Drop an end of line that follows the opening quotes. -/
def skipFirstNewline (cs : List Char) : List Char := (newline? cs).getD cs

/-- Drop blanks, tabs and ends of lines. -/
def skipBreaks : List Char → List Char
  | [] => []
  | '\r' :: '\n' :: rest => skipBreaks rest
  | c :: rest => if isGap c || c == '\n' then skipBreaks rest else c :: rest

/-- A string of several lines in triple double quotes, after the quotes.  Ends of lines stay
as they are written. -/
def readLongBasic? : Nat → List Char → Option (List Char × List Char)
  | 0, _ => none
  | fuel + 1, cs =>
      match closing? '"' cs with
      | some answer => some answer
      | none =>
          match cs with
          | [] => none
          | '\\' :: rest =>
              match newline? (skipGap rest) with
              | some rest => readLongBasic? fuel (skipBreaks rest)
              | none =>
                  match readEscape? rest with
                  | none => none
                  | some (c, rest) => (readLongBasic? fuel rest).map (fun p => (c :: p.1, p.2))
          | '\r' :: '\n' :: rest =>
              (readLongBasic? fuel rest).map (fun p => ('\r' :: '\n' :: p.1, p.2))
          | c :: rest =>
              if isPlain c || c == '\n' then
                (readLongBasic? fuel rest).map (fun p => (c :: p.1, p.2))
              else none

/-- A string of several lines in triple single quotes, after the quotes.  Ends of lines stay
as they are written. -/
def readLongLiteral? : Nat → List Char → Option (List Char × List Char)
  | 0, _ => none
  | fuel + 1, cs =>
      match closing? '\'' cs with
      | some answer => some answer
      | none =>
          match cs with
          | [] => none
          | '\r' :: '\n' :: rest =>
              (readLongLiteral? fuel rest).map (fun p => ('\r' :: '\n' :: p.1, p.2))
          | c :: rest =>
              if isPlain c || c == '\n' then
                (readLongLiteral? fuel rest).map (fun p => (c :: p.1, p.2))
              else none

/-- A character of a bare key. -/
def isBare (c : Char) : Bool :=
  ('a' ≤ c && c ≤ 'z') || ('A' ≤ c && c ≤ 'Z') || ('0' ≤ c && c ≤ '9') || c == '_' || c == '-'

/-- One part of a key. -/
def readKeyPart? (cs : List Char) : Option (String × List Char) :=
  match cs with
  | '"' :: rest => (readBasic? (rest.length + 1) rest).map (fun p => (String.ofList p.1, p.2))
  | '\'' :: rest => (readLiteral? rest).map (fun p => (String.ofList p.1, p.2))
  | _ =>
      match cs.takeWhile isBare with
      | [] => none
      | part => some (String.ofList part, cs.dropWhile isBare)

/-- How deep arrays and inline tables may be nested, and how many parts a key may have. -/
def maxLevels : Nat := 80

/-- The parts of a key joined by dots, at most so many. -/
def readParts? : Nat → List Char → Option (List String × List Char)
  | 0, _ => none
  | count + 1, cs =>
      match readKeyPart? (skipGap cs) with
      | none => none
      | some (part, cs) =>
          match skipGap cs with
          | '.' :: rest => (readParts? count rest).map (fun p => (part :: p.1, p.2))
          | cs => some ([part], cs)

/-- A key. -/
def readKey? (cs : List Char) : Option (List String × List Char) := readParts? maxLevels cs

/-- Digits of a class without the underscores between them. -/
def joinDigits? (isDigit : Char → Bool) : List Char → Option (List Char)
  | [] => none
  | [c] => if isDigit c then some [c] else none
  | c :: '_' :: rest => if isDigit c then (joinDigits? isDigit rest).map (c :: ·) else none
  | c :: rest => if isDigit c then (joinDigits? isDigit rest).map (c :: ·) else none

/-- A number in a base, without sign. -/
def readBase? (base : Nat) (digits : List Char) : Option Nat := do
  let digits ← joinDigits? (fun c => (hexValue? c).any (fun n => n < base)) digits
  return digits.foldl (fun n c => n * base + (hexValue? c).getD 0) 0

/-- A number in base ten without sign: no zero in front of others. -/
def readDecimal? (digits : List Char) : Option Nat :=
  match digits with
  | '0' :: _ :: _ => none
  | digits => readBase? 10 digits

/-- An integer. -/
def integer? (token : List Char) : Option Int :=
  match token with
  | '0' :: 'x' :: digits => (readBase? 16 digits).map Int.ofNat
  | '0' :: 'o' :: digits => (readBase? 8 digits).map Int.ofNat
  | '0' :: 'b' :: digits => (readBase? 2 digits).map Int.ofNat
  | '-' :: digits => (readDecimal? digits).map (fun n => -(n : Int))
  | '+' :: digits => (readDecimal? digits).map Int.ofNat
  | digits => (readDecimal? digits).map Int.ofNat

/-- The sign of a token and the rest. -/
def splitSign (token : List Char) : Bool × List Char :=
  match token with
  | '-' :: rest => (true, rest)
  | '+' :: rest => (false, rest)
  | _ => (false, token)

/-- An exponent after its mark. -/
def exponent? (digits : List Char) : Option Int := do
  let (negative, digits) := splitSign digits
  let n ← readBase? 10 digits
  return if negative then -(n : Int) else n

/-- A number with point or exponent; none in place of the number if it is too large. -/
def decimal? (token : List Char) : Option (Option Decimal) := do
  let (negative, body) := splitSign token
  let mantissa := body.takeWhile (fun c => c != 'e' && c != 'E')
  let power ←
    match body.drop mantissa.length with
    | [] => some 0
    | _ :: digits => exponent? digits
  let whole := mantissa.takeWhile (· != '.')
  let fraction ←
    match mantissa.drop whole.length with
    | [] => if mantissa.length = body.length then none else some []
    | _ :: digits => joinDigits? isNumeral digits
  let n ← readDecimal? whole
  let digits := fraction.foldl (fun n c => n * 10 + (c.toNat - 48)) n
  return Decimal.nearest? negative digits (power - fraction.length)

/-- Whether a token stands for an infinity or for what is not a number. -/
def isNotFinite (token : List Char) : Bool :=
  let body := (splitSign token).2
  body == ['i', 'n', 'f'] || body == ['n', 'a', 'n']

/-- A character of a value that is not quoted. -/
def isTokenChar (c : Char) : Bool := isBare c || c == '+' || c == '.' || c == ':'

/-- A value that is not quoted. -/
def scalar? (token : List Char) : Option Item :=
  if token = ['t', 'r', 'u', 'e'] then some (.bool true)
  else if token = ['f', 'a', 'l', 's', 'e'] then some (.bool false)
  else if DateTime.isWritten token then some (.dateTime (String.ofList token))
  else if isNotFinite token then some .notFinite
  else ((integer? token).map .integer).or ((decimal? token).map .decimal)

/-- The characters of a value that is not quoted, and the rest.  A blank between a date and
a time belongs to the value. -/
def splitToken (cs : List Char) : List Char × List Char :=
  let token := cs.takeWhile isTokenChar
  match cs.drop token.length with
  | ' ' :: rest =>
      if DateTime.date? token == some [] && rest.head?.any isNumeral then
        (token ++ ' ' :: rest.takeWhile isTokenChar, rest.dropWhile isTokenChar)
      else (token, ' ' :: rest)
  | rest => (token, rest)

mutual

/-- A value, with so many levels left for arrays and inline tables. -/
def readValue? : Nat → Nat → List Char → Option (Item × List Char)
  | 0, _, _ => none
  | fuel + 1, levels, cs =>
      match cs with
      | '"' :: '"' :: '"' :: rest =>
          (readLongBasic? (rest.length + 1) (skipFirstNewline rest)).map
            (fun p => (.string (String.ofList p.1), p.2))
      | '"' :: rest =>
          (readBasic? (rest.length + 1) rest).map (fun p => (.string (String.ofList p.1), p.2))
      | '\'' :: '\'' :: '\'' :: rest =>
          (readLongLiteral? (rest.length + 1) (skipFirstNewline rest)).map
            (fun p => (.string (String.ofList p.1), p.2))
      | '\'' :: rest =>
          (readLiteral? rest).map (fun p => (.string (String.ofList p.1), p.2))
      | '[' :: rest =>
          if levels = 0 then none
          else (readItems? fuel (levels - 1) rest).map (fun p => (.array p.1, p.2))
      | '{' :: rest =>
          if levels = 0 then none
          else (readInline? fuel (levels - 1) [] rest).map (fun p => (.inline p.1, p.2))
      | _ => (scalar? (splitToken cs).1).map (fun item => (item, (splitToken cs).2))

/-- The items of an array up to its closing bracket. -/
def readItems? : Nat → Nat → List Char → Option (List Item × List Char)
  | 0, _, _ => none
  | fuel + 1, levels, cs =>
      match skipLines (cs.length + 1) cs with
      | ']' :: rest => some ([], rest)
      | cs =>
          match readValue? fuel levels cs with
          | none => none
          | some (item, cs) =>
              match skipLines (cs.length + 1) cs with
              | ',' :: rest =>
                  (readItems? fuel levels rest).map (fun p => (item :: p.1, p.2))
              | ']' :: rest => some ([item], rest)
              | _ => none

/-- The fields of an inline table up to its closing brace.  Lines may end before and after
every part of it but within a key. -/
def readInline? : Nat → Nat → Fields → List Char → Option (Fields × List Char)
  | 0, _, _, _ => none
  | fuel + 1, levels, fields, cs =>
      match skipLines (cs.length + 1) cs with
      | '}' :: rest => some (fields, rest)
      | cs =>
          match readKey? cs with
          | none => none
          | some (key, cs) =>
              match skipLines (cs.length + 1) cs with
              | '=' :: cs =>
                  match readValue? fuel levels (skipLines (cs.length + 1) cs) with
                  | none => none
                  | some (item, cs) =>
                      match storeDotted? item key fields with
                      | none => none
                      | some fields =>
                          match skipLines (cs.length + 1) cs with
                          | ',' :: rest => readInline? fuel levels fields rest
                          | '}' :: rest => some (fields, rest)
                          | _ => none
              | _ => none

end

/-- What the keys of a header do, given its last key. -/
def header? (open? : String → Fields → Option Fields) (key : List String) (root : Fields) :
    Option Fields :=
  match key.getLast? with
  | none => none
  | some last => underHeader? (open? last) key.dropLast root

/-- The lines of a document, given the header they stand under. -/
def readLines? : Nat → List String → Fields → List Char → Option Fields
  | 0, _, _, _ => none
  | fuel + 1, current, root, cs =>
      match skipLines (cs.length + 1) cs with
      | [] => some root
      | '[' :: '[' :: cs =>
          match readKey? cs with
          | some (key, ']' :: ']' :: cs) =>
              match header? openNext? key root, endOfLine? cs with
              | some root, some cs => readLines? fuel key root cs
              | _, _ => none
          | _ => none
      | '[' :: cs =>
          match readKey? cs with
          | some (key, ']' :: cs) =>
              match header? openTable? key root, endOfLine? cs with
              | some root, some cs => readLines? fuel key root cs
              | _, _ => none
          | _ => none
      | cs =>
          match readKey? cs with
          | some (key, '=' :: cs) =>
              match readValue? (2 * cs.length + 2) maxLevels (skipGap cs) with
              | none => none
              | some (item, cs) =>
                  match underHeader? (storeDotted? item key) current root, endOfLine? cs with
                  | some root, some cs => readLines? fuel current root cs
                  | _, _ => none
          | _ => none

/-- A text without the mark of byte order that may stand in front. -/
def withoutByteOrderMark (cs : List Char) : List Char :=
  match cs with
  | c :: rest => if c.toNat = 0xFEFF then rest else cs
  | [] => []

/-- The fields of the root table of a text. -/
def read? (text : String) : Option Fields :=
  let cs := withoutByteOrderMark text.toList
  readLines? (cs.length + 1) [] [] cs

end Toml

end ConfigCompiler
