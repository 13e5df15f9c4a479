import Resumable.Json.Basic

/-!
# Writing JSON

Two layouts of one grammar.  The compact one has no blanks.  The pretty one
puts every item on a line of its own, two blanks deeper than its container, and
writes an empty container on one line.

A string is written between quotes; a quote and a backslash are escaped, and so
are the control characters below U+0020, five of them by a letter and the rest
by four hexadecimal digits.
-/

namespace Resumable.Json

/-- A whole number in decimal. -/
def decimal (n : Int) : List Char :=
  if n < 0 then '-' :: Nat.toDigits 10 n.natAbs else Nat.toDigits 10 n.natAbs

/-- How one character is written in a string. -/
def escapedChar (c : Char) : List Char :=
  if c = '"' then ['\\', '"']
  else if c = '\\' then ['\\', '\\']
  else if c = '\x08' then ['\\', 'b']
  else if c = '\x0c' then ['\\', 'f']
  else if c = '\n' then ['\\', 'n']
  else if c = '\r' then ['\\', 'r']
  else if c = '\t' then ['\\', 't']
  else if c.toNat < 0x20 then
    ['\\', 'u', '0', '0', Nat.digitChar (c.toNat / 16), Nat.digitChar (c.toNat % 16)]
  else [c]

def quotedString (s : String) : List Char :=
  '"' :: s.toList.flatMap escapedChar ++ ['"']

/-! ## The compact layout -/

mutual

/-- A value without blanks.  A value that can only be skipped is written as `null`. -/
def compactChars : Json → List Char
  | .null => ['n', 'u', 'l', 'l']
  | .bool true => ['t', 'r', 'u', 'e']
  | .bool false => ['f', 'a', 'l', 's', 'e']
  | .int n => decimal n
  | .number text => text.toList
  | .str s => quotedString s
  | .arr [] => ['[', ']']
  | .arr (item :: items) => '[' :: compactChars item ++ compactItems items
  | .obj [] => ['\x7b', '\x7d']
  | .obj ((name, value) :: members) =>
    '\x7b' :: quotedString name ++ ':' :: compactChars value ++ compactMembers members
  | .other => ['n', 'u', 'l', 'l']

/-- The items after the first, and the end of the array. -/
def compactItems : List Json → List Char
  | [] => [']']
  | item :: items => ',' :: compactChars item ++ compactItems items

/-- The members after the first, and the end of the object. -/
def compactMembers : List (String × Json) → List Char
  | [] => ['\x7d']
  | (name, value) :: members =>
    ',' :: quotedString name ++ ':' :: compactChars value ++ compactMembers members

end

def compact (j : Json) : String := String.ofList (compactChars j)

/-! ## The pretty layout -/

/-- A new line at a depth. -/
def newline (depth : Nat) : List Char :=
  '\n' :: List.replicate (2 * depth) ' '

mutual

/-- A value whose container stands at `depth`. -/
def prettyChars (depth : Nat) : Json → List Char
  | .null => ['n', 'u', 'l', 'l']
  | .bool true => ['t', 'r', 'u', 'e']
  | .bool false => ['f', 'a', 'l', 's', 'e']
  | .int n => decimal n
  | .number text => text.toList
  | .str s => quotedString s
  | .arr [] => ['[', ']']
  | .arr (item :: items) =>
    '[' :: newline (depth + 1) ++ prettyChars (depth + 1) item ++ prettyItems depth items
  | .obj [] => ['\x7b', '\x7d']
  | .obj ((name, value) :: members) =>
    '\x7b' :: newline (depth + 1) ++ quotedString name ++ ':' :: ' ' ::
      prettyChars (depth + 1) value ++ prettyMembers depth members
  | .other => ['n', 'u', 'l', 'l']

/-- The items after the first, and the end of an array that stands at `depth`. -/
def prettyItems (depth : Nat) : List Json → List Char
  | [] => newline depth ++ [']']
  | item :: items =>
    ',' :: newline (depth + 1) ++ prettyChars (depth + 1) item ++ prettyItems depth items

/-- The members after the first, and the end of an object that stands at `depth`. -/
def prettyMembers (depth : Nat) : List (String × Json) → List Char
  | [] => newline depth ++ ['\x7d']
  | (name, value) :: members =>
    ',' :: newline (depth + 1) ++ quotedString name ++ ':' :: ' ' ::
      prettyChars (depth + 1) value ++ prettyMembers depth members

end

def pretty (j : Json) : String := String.ofList (prettyChars 0 j)

end Resumable.Json
