import ConfigCompiler.Text.Hexadecimal
import ConfigCompiler.Value.Basic

/-!
# The compact text of a value

Values are written without blanks, object keys in order.  Text is raw except for
quotes, backslashes and the controls below the blank.

**Rules.**  `escapeChar` says how one character of a string is written;
`Tree.chars` writes nested data.
-/

namespace ConfigCompiler

/-- The text of an integer. -/
def intChars (n : Int) : List Char :=
  (if n < 0 then ['-'] else []) ++ Nat.toDigits 10 n.natAbs

/-- The text of a number. -/
def Number.chars : Number → List Char
  | .int n => intChars n
  | .decimal d => d.text

/-- How a character is written inside quotes. -/
def escapeChar (c : Char) : List Char :=
  if c = '"' then ['\\', '"']
  else if c = '\\' then ['\\', '\\']
  else if c.toNat = 0x08 then ['\\', 'b']
  else if c.toNat = 0x0C then ['\\', 'f']
  else if c = '\n' then ['\\', 'n']
  else if c = '\r' then ['\\', 'r']
  else if c = '\t' then ['\\', 't']
  else if c.toNat < 0x20 then
    ['\\', 'u', '0', '0', hexDigit (c.toNat / 16), hexDigit (c.toNat % 16)]
  else [c]

/-- A string in quotes. -/
def quotedChars (s : String) : List Char :=
  '"' :: s.toList.flatMap escapeChar ++ ['"']

namespace Tree

mutual

/-- The compact text. -/
def chars : Tree → List Char
  | .null => ['n', 'u', 'l', 'l']
  | .bool true => ['t', 'r', 'u', 'e']
  | .bool false => ['f', 'a', 'l', 's', 'e']
  | .number n => n.chars
  | .string s => quotedChars s
  | .array items => '[' :: (itemsChars items).drop 1 ++ [']']
  | .object fields => '{' :: (fieldsChars fields).drop 1 ++ ['}']

/-- The items, each after a comma. -/
def itemsChars : List Tree → List Char
  | [] => []
  | t :: rest => ',' :: t.chars ++ itemsChars rest

/-- The fields, each after a comma. -/
def fieldsChars : List (String × Tree) → List Char
  | [] => []
  | (k, t) :: rest => ',' :: quotedChars k ++ ':' :: t.chars ++ fieldsChars rest

end

end Tree

/-- The compact text of a value. -/
def Value.text (v : Value) : String := String.ofList v.tree.chars

end ConfigCompiler
