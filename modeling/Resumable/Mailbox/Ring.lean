/-!
# The buffer of a mailbox

A first-in first-out buffer that starts with a number of slots and doubles them
when it is full, up to a maximum.  `items` is its content, oldest first.

`items_of_push?` and `items_of_pop?` say what the operations do to the content: one
adds at the back, the other takes from the front.
-/

namespace Resumable

structure Ring (α : Type) where
  items : List α
  /-- The slots there are now. -/
  capacity : Nat
  /-- The slots there can be. -/
  max : Nat
  deriving DecidableEq, Inhabited

namespace Ring

variable {α : Type}

/-- The largest number of slots, that of a buffer without a bound. -/
def largest : Nat := UInt64.size - 1

/-- An empty buffer.  It has a slot at least, and at most `max`. -/
def ofCapacity (initial max : Nat) : Ring α :=
  { items := [], capacity := Nat.min (Nat.max initial 1) (Nat.max max 1), max := Nat.max max 1 }

def length (r : Ring α) : Nat := r.items.length

def isEmpty (r : Ring α) : Bool := r.items.isEmpty

def hasSpace (r : Ring α) : Bool := decide (r.items.length < r.max)

/-- The slots after doubling; a count that would pass the largest one stays there. -/
def grown (r : Ring α) : Nat := Nat.min (Nat.min (2 * r.capacity) largest) r.max

/-- Adds an item at the back.  Nothing is the answer when every slot is taken and
there can be no more. -/
def push? (r : Ring α) (a : α) : Option (Ring α) :=
  if r.items.length = r.capacity then
    if r.capacity = r.max then none
    else some { r with items := r.items ++ [a], capacity := r.grown }
  else some { r with items := r.items ++ [a] }

/-- Takes the oldest item. -/
def pop? (r : Ring α) : Option (α × Ring α) :=
  match r.items with
  | [] => none
  | a :: rest => some (a, { r with items := rest })

/-! ## What the operations do to the content -/

theorem items_of_push? {r r' : Ring α} {a : α} (h : r.push? a = some r') :
    r'.items = r.items ++ [a] := by
  unfold push? at h
  split at h
  · split at h
    · exact absurd h (by simp)
    · rw [← Option.some.inj h]
  · rw [← Option.some.inj h]

theorem items_of_pop? {r r' : Ring α} {a : α} (h : r.pop? = some (a, r')) :
    r.items = a :: r'.items := by
  unfold pop? at h
  split at h
  · exact absurd h (by simp)
  · rename_i b rest items
    obtain ⟨rfl, rfl⟩ := Prod.mk.inj (Option.some.inj h)
    exact items

theorem pop?_eq_none_iff {r : Ring α} : r.pop? = none ↔ r.items = [] := by
  unfold pop?
  split <;> simp_all

end Ring

end Resumable
