import ConfigCompiler.Time.Timestamp

/-!
# Dates and times in TOML

A value may be a date, a time of day, or a date and a time with or without an offset.
Seconds may be left out; a fraction follows seconds only.  Between a date and a time
stands `T` or one blank.

**Readers.**  Each takes its part from the front of a text and answers the rest, or
none.  `DateTime.isWritten` says whether a whole text is a date, a time or both.
-/

namespace ConfigCompiler

namespace Toml

/-- A digit of a number, from 0 to 9. -/
def isNumeral (c : Char) : Bool := '0' ≤ c && c ≤ '9'

namespace DateTime

/-- A number of exactly so many digits. -/
def digits? (width : Nat) (cs : List Char) : Option (Nat × List Char) :=
  let digits := cs.takeWhile isNumeral
  if digits.length = width then some (Nat.ofDigitChars 10 digits 0, cs.drop width) else none

/-- One character of a kind. -/
def mark? (isMark : Char → Bool) : List Char → Option (List Char)
  | [] => none
  | c :: rest => if isMark c then some rest else none

/-- A date of the calendar: year, month and day. -/
def date? (cs : List Char) : Option (List Char) := do
  let (year, cs) ← digits? 4 cs
  let cs ← mark? (· == '-') cs
  let (month, cs) ← digits? 2 cs
  let cs ← mark? (· == '-') cs
  let (day, cs) ← digits? 2 cs
  guard (1 ≤ month && month ≤ 12 && 1 ≤ day && day ≤ Timestamp.daysInMonth year month)
  return cs

/-- An hour and a minute. -/
def clock? (cs : List Char) : Option (List Char) := do
  let (hour, cs) ← digits? 2 cs
  let cs ← mark? (· == ':') cs
  let (minute, cs) ← digits? 2 cs
  guard (hour ≤ 23 && minute ≤ 59)
  return cs

/-- The fraction of a second, if there is one. -/
def fraction? (cs : List Char) : Option (List Char) :=
  match cs with
  | '.' :: rest => if rest.head?.any isNumeral then some (rest.dropWhile isNumeral) else none
  | _ => some cs

/-- A time of day.  A sixtieth second is a leap second. -/
def time? (cs : List Char) : Option (List Char) := do
  let cs ← clock? cs
  match cs with
  | ':' :: rest =>
      let (second, rest) ← digits? 2 rest
      guard (second ≤ 60)
      fraction? rest
  | _ => return cs

/-- An offset, if there is one. -/
def offset? (cs : List Char) : Option (List Char) :=
  match cs with
  | [] => some []
  | c :: rest =>
      if c = 'Z' || c = 'z' then some rest
      else if c = '+' || c = '-' then clock? rest
      else none

/-- A date alone, or a date and a time with or without an offset. -/
def dated? (cs : List Char) : Option (List Char) := do
  let cs ← date? cs
  match cs with
  | [] => return []
  | _ =>
      let cs ← mark? (fun c => c == 'T' || c == 't' || c == ' ') cs
      let cs ← time? cs
      offset? cs

/-- Whether a text is a date, a time of day, or both. -/
def isWritten (cs : List Char) : Bool :=
  dated? cs == some [] || time? cs == some []

end DateTime

end Toml

end ConfigCompiler
