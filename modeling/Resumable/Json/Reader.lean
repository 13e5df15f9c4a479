import Resumable.Json.Basic

/-!
# Reading JSON

A reader for one value with blanks around it.  Each function takes the
characters that are left and gives what it read together with the rest, or
`none` where the text is not grammatical.

A string is read in two steps.  The grammar allows any four hexadecimal digits
after a backslash and a `u`; `joined` then puts surrogate pairs together, and a
surrogate without its other half leaves no string.
-/

namespace Resumable.Json

def isBlank (c : Char) : Bool :=
  c == ' ' || c == '\n' || c == '\t' || c == '\r'

def skipBlanks (cs : List Char) : List Char := cs.dropWhile isBlank

/-! ## Strings -/

/-- A part of a string: a character, or the value of four hexadecimal digits. -/
inductive Piece where
  | char (c : Char)
  | unit (n : Nat)

/-- The value of a hexadecimal digit, of either case. -/
def hexValue? (c : Char) : Option Nat :=
  if '0' ≤ c ∧ c ≤ '9' then some (c.toNat - '0'.toNat)
  else if 'a' ≤ c ∧ c ≤ 'f' then some (c.toNat - 'a'.toNat + 10)
  else if 'A' ≤ c ∧ c ≤ 'F' then some (c.toNat - 'A'.toNat + 10)
  else none

/-- The character that a letter stands for after a backslash. -/
def escape? (c : Char) : Option Char :=
  if c = '"' then some '"'
  else if c = '\\' then some '\\'
  else if c = '/' then some '/'
  else if c = 'b' then some '\x08'
  else if c = 'f' then some '\x0c'
  else if c = 'n' then some '\n'
  else if c = 'r' then some '\r'
  else if c = 't' then some '\t'
  else none

/-- The value of four hexadecimal digits. -/
def hexUnit? (a b c d : Char) : Option Nat := do
  let high := (← hexValue? a) * 16 + (← hexValue? b)
  let low := (← hexValue? c) * 16 + (← hexValue? d)
  return high * 256 + low

/-- What the scanner of a string expects next. -/
inductive Mode where
  | plain
  | escaped
  /-- The hexadecimal digits read so far. -/
  | digits (read : List Char)

/-- The parts of a string after its opening quote.  A control character must
not stand in a string. -/
def pieces : Mode → List Char → Option (List Piece × List Char)
  | _, [] => none
  | .plain, c :: rest =>
    if c = '"' then some ([], rest)
    else if c = '\\' then pieces .escaped rest
    else if c.toNat < 0x20 then none
    else (pieces .plain rest).map fun r => (.char c :: r.1, r.2)
  | .escaped, c :: rest =>
    if c = 'u' then pieces (.digits []) rest
    else match escape? c with
      | some e => (pieces .plain rest).map fun r => (.char e :: r.1, r.2)
      | none => none
  | .digits [x, y, z], c :: rest =>
    match hexUnit? x y z c with
    | some n => (pieces .plain rest).map fun r => (.unit n :: r.1, r.2)
    | none => none
  | .digits read, c :: rest => pieces (.digits (read ++ [c])) rest

/-- The characters of the parts, surrogate pairs joined. -/
def joined : List Piece → Option (List Char)
  | [] => some []
  | .char c :: rest => (joined rest).map (c :: ·)
  | .unit high :: .unit low :: rest =>
    if 0xD800 ≤ high ∧ high < 0xDC00 then
      if 0xDC00 ≤ low ∧ low < 0xE000 then
        (joined rest).map
          (Char.ofNat (0x10000 + (high - 0xD800) * 0x400 + (low - 0xDC00)) :: ·)
      else none
    else if 0xDC00 ≤ high ∧ high < 0xE000 then none
    else (joined (.unit low :: rest)).map (Char.ofNat high :: ·)
  | .unit n :: rest =>
    if 0xD800 ≤ n ∧ n < 0xE000 then none
    else (joined rest).map (Char.ofNat n :: ·)

/-- A string after its opening quote; no value when a surrogate stands alone. -/
def stringRest (cs : List Char) : Option (Option String × List Char) :=
  (pieces .plain cs).map fun r => ((joined r.1).map String.ofList, r.2)

/-! ## Numbers -/

def isDigit (c : Char) : Bool := '0' ≤ c && c ≤ '9'

def digitValue (c : Char) : Nat := c.toNat - '0'.toNat

def natOfDigits (ds : List Char) : Nat :=
  ds.foldl (fun n d => n * 10 + digitValue d) 0

/-- One or more digits. -/
def digits (cs : List Char) : Option (List Char × List Char) :=
  match cs.takeWhile isDigit with
  | [] => none
  | ds => some (ds, cs.dropWhile isDigit)

/-- Digits without a leading zero. -/
def wholeDigits (cs : List Char) : Option (List Char × List Char) :=
  match digits cs with
  | some ('0' :: _ :: _, _) => none
  | r => r

/-- A fraction, if one follows; the flag says whether it does. -/
def fraction : List Char → Option (Bool × List Char)
  | '.' :: rest => (digits rest).map fun r => (true, r.2)
  | rest => some (false, rest)

def dropSign : List Char → List Char
  | '+' :: rest => rest
  | '-' :: rest => rest
  | rest => rest

/-- An exponent, if one follows; the flag says whether it does. -/
def exponent : List Char → Option (Bool × List Char)
  | 'e' :: rest => (digits (dropSign rest)).map fun r => (true, r.2)
  | 'E' :: rest => (digits (dropSign rest)).map fun r => (true, r.2)
  | rest => some (false, rest)

/-- A number after its sign.  Only a number without fraction and exponent is
whole, and zero with a minus sign is not. -/
def unsigned (negative : Bool) (cs : List Char) : Option (Json × List Char) := do
  let (ds, rest) ← wholeDigits cs
  let (hasFraction, rest) ← fraction rest
  let (hasExponent, rest) ← exponent rest
  let n := natOfDigits ds
  if hasFraction || hasExponent || (negative && n == 0) then
    let text := cs.take (cs.length - rest.length)
    return (.number (String.ofList (if negative then '-' :: text else text)), rest)
  else if negative then return (.int (-(n : Int)), rest)
  else return (.int n, rest)

/-! ## Values -/

/-- The rest after a word. -/
def word (w : List Char) (cs : List Char) : Option (List Char) :=
  if w.isPrefixOf cs then some (cs.drop w.length) else none

/-- An object with a name that is no string can only be skipped. -/
def object (members : List (Option String × Json)) : Json :=
  match members.mapM fun m => m.1.map fun name => (name, m.2) with
  | some named => .obj named
  | none => .other

mutual

/-- One value, without blanks before it.  The first argument bounds the depth of
the calls; twice the length of the text is enough, since every second call reads
a character. -/
def value : Nat → List Char → Option (Json × List Char)
  | 0, _ => none
  | _ + 1, [] => none
  | fuel + 1, c :: cs =>
    if c = '"' then
      (stringRest cs).map fun r => ((r.1.map Json.str).getD .other, r.2)
    else if c = '[' then
      match skipBlanks cs with
      | ']' :: rest => some (.arr [], rest)
      | rest => (items fuel rest).map fun r => (.arr r.1, r.2)
    else if c = '\x7b' then
      match skipBlanks cs with
      | '\x7d' :: rest => some (.obj [], rest)
      | rest => (members fuel rest).map fun r => (object r.1, r.2)
    else if c = 'n' then (word ['u', 'l', 'l'] cs).map fun r => (.null, r)
    else if c = 't' then (word ['r', 'u', 'e'] cs).map fun r => (.bool true, r)
    else if c = 'f' then (word ['a', 'l', 's', 'e'] cs).map fun r => (.bool false, r)
    else if c = '-' then unsigned true cs
    else unsigned false (c :: cs)

/-- One or more items and the end of the array. -/
def items : Nat → List Char → Option (List Json × List Char)
  | 0, _ => none
  | fuel + 1, cs => do
    let (item, rest) ← value fuel cs
    match skipBlanks rest with
    | ']' :: rest => return ([item], rest)
    | ',' :: rest =>
      let (more, rest) ← items fuel (skipBlanks rest)
      return (item :: more, rest)
    | _ => none

/-- One or more members and the end of the object. -/
def members : Nat → List Char → Option (List (Option String × Json) × List Char)
  | 0, _ => none
  | fuel + 1, cs => do
    match cs with
    | '"' :: cs =>
      let (name, rest) ← stringRest cs
      match skipBlanks rest with
      | ':' :: rest =>
        let (item, rest) ← value fuel (skipBlanks rest)
        match skipBlanks rest with
        | '\x7d' :: rest => return ([(name, item)], rest)
        | ',' :: rest =>
          let (more, rest) ← members fuel (skipBlanks rest)
          return ((name, item) :: more, rest)
        | _ => none
      | _ => none
    | _ => none

end

/-- The value of a text, with blanks around it. -/
def ofChars? (cs : List Char) : Option Json := do
  let (j, rest) ← value (2 * cs.length + 2) (skipBlanks cs)
  if (skipBlanks rest).isEmpty then some j else none

def ofText? (text : String) : Option Json := ofChars? text.toList

end Resumable.Json
