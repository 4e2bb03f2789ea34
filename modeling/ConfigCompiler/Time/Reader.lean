import ConfigCompiler.Text.Blank
import ConfigCompiler.Time.Timestamp

/-!
# Reading timestamps

`Timestamp.read?` reads a date and a time with an offset and turns them into
universal time.
-/

namespace ConfigCompiler

namespace Timestamp

/-- A digit from 0 to 9. -/
def isTimeDigit (c : Char) : Bool := '0' ≤ c && c ≤ '9'

/-- Drop blanks. -/
def skipBlanks (cs : List Char) : List Char := cs.dropWhile isBlank

/-- A number of at least one digit, of which at most `width` are taken. -/
def readNumber? (width : Nat) (cs : List Char) : Option (Nat × List Char) :=
  match (cs.take width).takeWhile isTimeDigit with
  | [] => none
  | digits => some (Nat.ofDigitChars 10 digits 0, cs.drop digits.length)

/-- A number of two digits at most, after blanks. -/
def readPart? (cs : List Char) : Option (Nat × List Char) := readNumber? 2 (skipBlanks cs)

/-- A year: four digits at most, or a sign and any number of digits. -/
def readYear? (cs : List Char) : Option (Int × List Char) :=
  match skipBlanks cs with
  | '-' :: rest => (readNumber? rest.length rest).map (fun p => (-(p.1 : Int), p.2))
  | '+' :: rest => (readNumber? rest.length rest).map (fun p => ((p.1 : Int), p.2))
  | cs => (readNumber? 4 cs).map (fun p => ((p.1 : Int), p.2))

/-- One character, after blanks. -/
def readMark? (mark : Char) (cs : List Char) : Option (List Char) :=
  match skipBlanks cs with
  | c :: rest => if c = mark then some rest else none
  | [] => none

/-- The fraction of a second in nanoseconds; digits after the ninth are dropped. -/
def readFraction? (cs : List Char) : Option (Nat × List Char) :=
  match cs with
  | '.' :: rest =>
      match rest.takeWhile isTimeDigit with
      | [] => none
      | digits =>
          let counted := digits.take 9
          some (Nat.ofDigitChars 10 counted 0 * Nat.pow 10 (9 - counted.length),
            rest.dropWhile isTimeDigit)
  | _ => some (0, cs)

/-- An offset after its sign, in minutes: two digits of hours and two of minutes, with
colons or blanks between them. -/
def readOffsetMinutes? (cs : List Char) : Option (Nat × List Char) :=
  match cs with
  | h1 :: h2 :: rest =>
      if isTimeDigit h1 && isTimeDigit h2 then
        match rest.dropWhile (fun c => c == ':' || isBlank c) with
        | m1 :: m2 :: rest =>
            if isTimeDigit m1 && isTimeDigit m2 && m1 ≤ '5' then
              some (Nat.ofDigitChars 10 [h1, h2] 0 * 60 + Nat.ofDigitChars 10 [m1, m2] 0, rest)
            else none
        | _ => none
      else none
  | _ => none

/-- An offset from universal time, in minutes. -/
def readOffset? (cs : List Char) : Option (Int × List Char) :=
  match cs with
  | [] => none
  | c :: rest =>
      if (cs.take 3).map Char.toUpper = ['U', 'T', 'C'] then some (0, cs.drop 3)
      else if c = 'Z' || c = 'z' then some (0, rest)
      else if c = '+' then (readOffsetMinutes? rest).map (fun p => ((p.1 : Int), p.2))
      else if c = '-' || c.toNat = 0x2212 then
        (readOffsetMinutes? rest).map (fun p => (-(p.1 : Int), p.2))
      else none

/-- A date. -/
def readDate? (cs : List Char) : Option (Int × List Char) := do
  let (year, cs) ← readYear? cs
  let cs ← readMark? '-' cs
  let (month, cs) ← readPart? cs
  let cs ← readMark? '-' cs
  let (day, cs) ← readPart? cs
  guard (isYear year && 1 ≤ month && month ≤ 12 && 1 ≤ day && day ≤ daysInMonth year month)
  return (dayOfDate year month day, cs)

/-- A time of day: seconds and nanoseconds.  A sixtieth second is a leap second. -/
def readTime? (cs : List Char) : Option ((Nat × Nat) × List Char) := do
  let (hour, cs) ← readPart? cs
  let cs ← readMark? ':' cs
  let (minute, cs) ← readPart? cs
  let cs ← readMark? ':' cs
  let (second, cs) ← readPart? cs
  let (nano, cs) ← readFraction? cs
  guard (hour ≤ 23 && minute ≤ 59 && second ≤ 60)
  let seconds := hour * 3600 + minute * 60 + min second 59
  return ((seconds, if second = 60 then nano + 1000000000 else nano), cs)

/-- The sign between a date and a time. -/
def readSeparator? : List Char → Option (List Char)
  | c :: rest => if c = 'T' || c = 't' || c = ' ' then some rest else none
  | [] => none

/-- The point in time that a text denotes. -/
def read? (text : String) : Option Timestamp := do
  let (day, cs) ← readDate? text.toList
  let cs ← readSeparator? cs
  let ((second, nano), cs) ← readTime? cs
  let (offset, cs) ← readOffset? (skipBlanks cs)
  guard (skipBlanks cs).isEmpty
  guard (decide (offset.natAbs < 1440))
  let total : Int := day * 86400 + second - offset * 60
  let result : Timestamp := ⟨total / 86400, (total % 86400).toNat, nano⟩
  guard (isYear (dateOfDay result.day).1)
  return result

end Timestamp

end ConfigCompiler
