/-!
# Timers

Entries that are due at a time.  An entry carries the number of its insertion, so
that of two entries due at the same time the older one goes first.

`popExpired` takes out what is due, always the entry that goes first among those
that are left.
-/

namespace Resumable

structure TimerEntry (α : Type) where
  deadline : Nat
  /-- The number of entries inserted before this one. -/
  generation : Nat
  payload : α
  deriving DecidableEq, Inhabited

/-- Whether an entry goes before another: it is due earlier, or at the same time
and is older. -/
def TimerEntry.before {α : Type} (a b : TimerEntry α) : Bool :=
  a.deadline < b.deadline || (a.deadline == b.deadline && a.generation < b.generation)

structure TimerQueue (α : Type) where
  /-- The entries that wait, in no order. -/
  entries : List (TimerEntry α)
  nextGeneration : Nat
  deriving DecidableEq, Inhabited

namespace TimerQueue

variable {α : Type}

def empty : TimerQueue α := { entries := [], nextGeneration := 0 }

def insert (q : TimerQueue α) (deadline : Nat) (payload : α) : TimerQueue α :=
  { entries := { deadline, generation := q.nextGeneration, payload } :: q.entries
    nextGeneration := q.nextGeneration + 1 }

/-- Takes the entry that goes first out of `a :: rest`. -/
def extract (a : TimerEntry α) : List (TimerEntry α) → TimerEntry α × List (TimerEntry α)
  | [] => (a, [])
  | b :: rest =>
    if b.before a then
      let least := extract b rest
      (least.1, a :: least.2)
    else
      let least := extract a rest
      (least.1, b :: least.2)

theorem length_extract (a : TimerEntry α) (rest : List (TimerEntry α)) :
    (extract a rest).2.length = rest.length := by
  induction rest generalizing a with
  | nil => rfl
  | cons b rest ih =>
    unfold extract
    split <;> simp [ih]

/-- The time at which the next entry is due. -/
def nextDeadline? (q : TimerQueue α) : Option Nat :=
  match q.entries with
  | [] => none
  | a :: rest => some (extract a rest).1.deadline

/-- Splits entries into those due at a time, the first to go first, and the
others. -/
def splitDue (now : Nat) :
    List (TimerEntry α) → List (TimerEntry α) × List (TimerEntry α)
  | [] => ([], [])
  | a :: rest =>
    let next := extract a rest
    if next.1.deadline ≤ now then
      let later := splitDue now next.2
      (next.1 :: later.1, later.2)
    else ([], a :: rest)
  termination_by entries => entries.length
  decreasing_by
    rw [length_extract]
    exact Nat.lt_succ_self _

/-- Takes out every entry that is due at a time, the first to go first. -/
def popExpired (q : TimerQueue α) (now : Nat) : List (TimerEntry α) × TimerQueue α :=
  let split := splitDue now q.entries
  (split.1, { q with entries := split.2 })

end TimerQueue

end Resumable
