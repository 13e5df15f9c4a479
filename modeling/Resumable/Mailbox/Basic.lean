import Resumable.Mailbox.Ring
import Resumable.Value

/-!
# Mailboxes

A mailbox is a buffer of messages with one task at most that waits for a message,
its consumer, and a line of tasks that wait for space, its producers.

The operations here change the mailbox alone and say which task is to be woken;
waking it is up to the caller.  A message that arrives wakes the consumer.  A
message that is taken wakes the producer that has waited longest, if there is
space now.
-/

namespace Resumable

structure Mailbox (α : Type) where
  ring : Ring α
  /-- The task that waits for a message. -/
  consumer : Option TaskId
  /-- The tasks that wait for space, in the order of their arrival. -/
  producers : List TaskId
  deriving DecidableEq, Inhabited

/-- Why a mailbox cannot be made. -/
inductive CapacityError where
  /-- No slots at first or at all, or more at first than there may be. -/
  | invalid (initial max : Nat)
  /-- The slots at first would not fit into memory, however much there is. -/
  | tooLarge
  deriving DecidableEq, Inhabited

def CapacityError.message : CapacityError → String
  | .invalid initial max =>
    "invalid mailbox capacity: initial " ++ initial.repr ++ ", max " ++ max.repr
  | .tooLarge => "capacity overflow"

namespace Mailbox

variable {α : Type}

/-- The slots that a mailbox starts with when nothing else is said. -/
def standardCapacity : Nat := 10

def ofCapacity (initial max : Nat) : Mailbox α :=
  { ring := .ofCapacity initial max, consumer := none, producers := [] }

/-- A mailbox without a bound. -/
def unbounded : Mailbox α := ofCapacity standardCapacity Ring.largest

/-- A mailbox for at most `max` messages, and for one at least. -/
def bounded (max : Nat) : Mailbox α :=
  ofCapacity (Nat.min standardCapacity (Nat.max max 1)) (Nat.max max 1)

/-- The bytes that a buffer can take at most. -/
def largestBuffer : Nat := UInt64.size / 2 - 1

/-- A mailbox with a number of slots at first and a bound, for messages that take a
number of bytes each. -/
def withCapacity (slotBytes initial max : Nat) : Except CapacityError (Mailbox α) :=
  if initial = 0 ∨ max = 0 ∨ max < initial then .error (.invalid initial max)
  else if largestBuffer < slotBytes * initial then .error .tooLarge
  else .ok (ofCapacity initial max)

/-! ## Messages -/

def hasMessage (m : Mailbox α) : Bool := !m.ring.isEmpty

def hasSpace (m : Mailbox α) : Bool := m.ring.hasSpace

/-- Takes a message.  If there is space now, the first producer leaves the line
and is to be woken. -/
def take? (m : Mailbox α) : Option (α × Option TaskId × Mailbox α) :=
  match m.ring.pop? with
  | none => none
  | some (a, ring) =>
    if ring.hasSpace then
      some (a, m.producers.head?, { m with ring, producers := m.producers.tail })
    else some (a, none, { m with ring })

/-- Adds a message.  The consumer, if there is one, is to be woken. -/
def give? (m : Mailbox α) (a : α) : Option (Option TaskId × Mailbox α) :=
  match m.ring.push? a with
  | none => none
  | some ring => some (m.consumer, { m with ring, consumer := none })

/-! ## Waiting tasks -/

/-- Makes a task the consumer. -/
def await (m : Mailbox α) (task : TaskId) : Mailbox α :=
  { m with consumer := some task }

/-- Puts a task at the end of the line of producers, if it is not in it. -/
def enqueue (m : Mailbox α) (task : TaskId) : Mailbox α :=
  if task ∈ m.producers then m else { m with producers := m.producers ++ [task] }

/-- Forgets a task as consumer. -/
def removeConsumer (m : Mailbox α) (task : TaskId) : Mailbox α :=
  if m.consumer = some task then { m with consumer := none } else m

/-- Forgets a task as producer. -/
def removeProducer (m : Mailbox α) (task : TaskId) : Mailbox α :=
  { m with producers := m.producers.filter (· ≠ task) }

/-- Forgets a task in both roles. -/
def removeListener (m : Mailbox α) (task : TaskId) : Mailbox α :=
  (m.removeConsumer task).removeProducer task

/-! ## Text -/

/-- The address of a mailbox, its number in hexadecimal. -/
def address (id : MailboxId) : String :=
  "mailbox@0x" ++ String.ofList (Nat.toDigits 16 id.index)

/-- Address, fill level, capacity and waiting tasks. -/
def text (m : Mailbox α) (id : MailboxId) : String :=
  address id ++ " [" ++ m.ring.length.repr ++ "/" ++ m.ring.capacity.repr
    ++ (match m.consumer with
        | some task => ", consumer " ++ task.text
        | none => "")
    ++ (if m.producers.isEmpty then ""
        else ", " ++ m.producers.length.repr ++ " producers waiting")
    ++ "]"

end Mailbox

end Resumable
