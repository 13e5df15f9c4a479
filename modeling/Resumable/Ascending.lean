/-!
# Sets as ascending lists

A finite set, written as the list of its members in strictly ascending order of
a numeric key.  Two sets with the same members are equal lists, so a computation
on sets can tell whether it changed anything.

Lists that are no sets are sorted by a key too (`sort`); their items keep the order that
they have where the keys are equal.
-/

namespace Resumable.Ascending

variable {α : Type}

/-- The set with one more member. -/
def insert (key : α → Nat) (a : α) : List α → List α
  | [] => [a]
  | b :: rest =>
    if key a < key b then a :: b :: rest
    else if key a = key b then b :: rest
    else b :: insert key a rest

/-- The set with the members of a list added. -/
def union (key : α → Nat) (set more : List α) : List α :=
  more.foldl (fun s a => insert key a s) set

/-- The set of the members of a list. -/
def ofList (key : α → Nat) (items : List α) : List α :=
  union key [] items

/-- The set without some members. -/
def diff [BEq α] (set fewer : List α) : List α :=
  set.filter fun a => !fewer.contains a

/-- Puts an item in front of the first one that has no lower key. -/
def place (key : α → Nat) (a : α) : List α → List α
  | [] => [a]
  | b :: rest => if key a ≤ key b then a :: b :: rest else b :: place key a rest

/-- The items of a list by their keys. -/
def sort (key : α → Nat) (items : List α) : List α :=
  items.foldr (place key) []

end Resumable.Ascending
