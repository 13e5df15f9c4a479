/-!
# JSON values

Values as they are read and written.  The members of an object keep their order
and may repeat a name.  A whole number keeps its value and every other number its text.
A text that is grammatical but denotes no string of characters becomes `other`.  No
reader of data accepts these two.

A record is written as an object.  It is read from an object, in which members
with other names are skipped and a repeated member is an error, or from the
array of its fields in order.  `Json.cells` reads both shapes into one list of
cells, one per field.
-/

namespace Resumable

inductive Json where
  | null
  | bool (value : Bool)
  | int (value : Int)
  /-- A number that is not whole, as it is written. -/
  | number (text : String)
  | str (value : String)
  | arr (items : List Json)
  | obj (members : List (String × Json))
  /-- A value that can only be skipped. -/
  | other
  deriving Inhabited

namespace Json

variable {α β : Type}

/-! ## Scalars -/

def string? : Json → Option String
  | .str s => some s
  | _ => none

def bool? : Json → Option Bool
  | .bool b => some b
  | _ => none

/-- A whole number of at most 64 bits with sign. -/
def int64? : Json → Option Int64
  | .int n =>
    if Int64.minValue.toInt ≤ n ∧ n ≤ Int64.maxValue.toInt then some (Int64.ofInt n) else none
  | _ => none

/-- A whole number from 0 up to and without a limit. -/
def natBelow? (limit : Nat) : Json → Option Nat
  | .int n => if 0 ≤ n ∧ n < limit then some n.toNat else none
  | _ => none

/-- A whole number of 32 bits without sign. -/
def word32? (j : Json) : Option UInt32 :=
  (j.natBelow? UInt32.size).map UInt32.ofNat

/-- A whole number of 64 bits without sign: a size or a position. -/
def size? (j : Json) : Option Nat :=
  j.natBelow? UInt64.size

/-! ## Lists, options, variants -/

/-- An array whose items are all read by `read`. -/
def list? (read : Json → Option α) : Json → Option (List α)
  | .arr items => items.mapM read
  | _ => none

/-- A value, or nothing for `null`. -/
def nullable? (read : Json → Option α) : Json → Option (Option α)
  | .null => some none
  | j => (read j).map some

/-- An array of two items. -/
def pair? (first : Json → Option α) (second : Json → Option β) : Json → Option (α × β)
  | .arr [a, b] => do return (← first a, ← second b)
  | _ => none

/-- A variant: its name alone, or an object with its name and its content. -/
def variant? : Json → Option (String × Option Json)
  | .str name => some (name, none)
  | .obj [(name, content)] => some (name, some content)
  | _ => none

/-- Whether the content is that of a variant without fields. -/
def isBare : Option Json → Bool
  | none => true
  | some .null => true
  | some _ => false

/-! ## Records -/

/-- One field of a record as it was found. -/
inductive Cell where
  | given (value : Json)
  /-- The object has no such member. -/
  | missing
  /-- The array ended before this field. -/
  | cut

/-- The cell of a field in an object. -/
def memberCell (members : List (String × Json)) (name : String) : Cell :=
  match members.find? (·.1 == name) with
  | some member => .given member.2
  | none => .missing

/-- The cells of an array of fields; an array that is too long has none. -/
def positionalCells : List String → List Json → Option (List Cell)
  | [], [] => some []
  | [], _ :: _ => none
  | _ :: names, [] => (positionalCells names []).map (.cut :: ·)
  | _ :: names, item :: items => (positionalCells names items).map (.given item :: ·)

/-- Whether no name occurs on two members. -/
def namedOnce (members : List (String × Json)) (names : List String) : Bool :=
  names.all fun name => (members.filter (·.1 == name)).length ≤ 1

/-- The fields of a record, in the order of `names`. -/
def cells (names : List String) : Json → Option (List Cell)
  | .obj members =>
    if namedOnce members names then some (names.map (memberCell members)) else none
  | .arr items => positionalCells names items
  | _ => none

namespace Cell

/-- A field that has to be there. -/
def required (read : Json → Option α) : Cell → Option α
  | .given j => read j
  | _ => none

/-- A field that an object may leave out, for nothing. -/
def optional (read : Json → Option α) : Cell → Option (Option α)
  | .given j => nullable? read j
  | .missing => some none
  | .cut => none

/-- A field with a default. -/
def orElse (read : Json → Option α) (default : α) : Cell → Option α
  | .given j => read j
  | _ => some default

end Cell

/-! ## Writing -/

def ofList (write : α → Json) (items : List α) : Json :=
  .arr (items.map write)

def ofOption (write : α → Json) : Option α → Json
  | some a => write a
  | none => .null

def ofNat (n : Nat) : Json := .int n

/-- The member of an object with a name, the first one. -/
def get? (name : String) : Json → Option Json
  | .obj members => (members.find? (·.1 == name)).map Prod.snd
  | _ => none

end Json

end Resumable
