import Resumable.Task.Crew

/-!
# Waiting from outside

What happens while a thread that is not a task waits: the workers, if they are free,
go on with their drives, the clock moves on and timers fire.

Time is simulated.  It goes by as bodies work, and when there is nothing to drive it
jumps to the next timer or to the end of the wait.
-/

namespace Resumable.Crew

variable {σ : Type}

/-- The time at which something happens next on its own, not after a limit. -/
def nextEvent? (c : Crew σ) (limit : Option Nat) : Option Nat :=
  match c.pool.commons.timers.nextDeadline?, limit with
  | some time, some limit => some (Nat.min time limit)
  | some time, none => some time
  | none, limit => limit

/-- Lets something happen before a limit: a drive goes on if the workers are `free`
and have one, or else the clock jumps.  There is nothing left once the limit is
reached, or if there is no limit and nothing to wait for. -/
def proceed? (exec : σ → Drive σ DriveEnd) (free : Bool) (limit : Option Nat) (c : Crew σ) :
    Option (Crew σ) :=
  if limit.any (· ≤ c.now) then none
  else match if free then c.turn? exec else none with
    | some c => some c
    | none => (c.nextEvent? limit).map c.advance

/-- What a waiting thread tries again and again. -/
abbrev Attempt (σ α : Type) := Crew σ → Option (α × Crew σ)

/-- Waits until an attempt succeeds, or up to a deadline; one more attempt is made
then.  Without a deadline the wait ends when nothing is left that could happen. -/
def await {α : Type} (exec : σ → Drive σ DriveEnd) (free : Bool) (deadline : Option Nat)
    (attempt : Attempt σ α) : Nat → Crew σ → Option α × Crew σ
  | 0, c => (none, c)
  | fuel + 1, c =>
    match attempt c with
    | some (a, c) => (some a, c)
    | none =>
      match c.proceed? exec free deadline with
      | some c => await exec free deadline attempt fuel c
      | none => (none, c)

/-- Two threads that wait: one tries from now on, and the other from a time on.  The
wait ends when both have succeeded; `a` and `b` are what they have so far. -/
def awaitBoth {α β : Type} (exec : σ → Drive σ DriveEnd) (free : Bool) (time : Nat)
    (first : Attempt σ α) (second : Attempt σ β) :
    Nat → Option α → Option β → Crew σ → Option α × Option β × Crew σ
  | 0, a, b, c => (a, b, c)
  | fuel + 1, a, b, c =>
    match if a.isNone then first c else none with
    | some (a, c) => awaitBoth exec free time first second fuel (some a) b c
    | none =>
      match if b.isNone && time ≤ c.now then second c else none with
      | some (b, c) => awaitBoth exec free time first second fuel a (some b) c
      | none =>
        if a.isSome && b.isSome then (a, b, c)
        else match c.proceed? exec free (if c.now < time then some time else none) with
          | some c => awaitBoth exec free time first second fuel a b c
          | none => (a, b, c)

/-- An attempt on what tasks share. -/
def trying {α : Type} (attempt : Commons → Option (α × Commons)) : Attempt σ α := fun c =>
  (attempt c.pool.commons).map fun (a, commons) => (a, c.withCommons commons)

/-- Takes a message. -/
def tryGet (box : MailboxId) : Attempt σ Value := trying fun c =>
  match c.getNb box with
  | (some v, c) => some (v, c)
  | (none, _) => none

/-- Adds a message. -/
def tryPut (box : MailboxId) (v : Value) : Attempt σ Unit := trying fun c =>
  match c.putNb box v with
  | (true, c) => some ((), c)
  | (false, _) => none

/-- Waits for a message while another thread puts one at a time.  Gives what was
taken. -/
def getWhilePut (exec : σ → Drive σ DriveEnd) (free : Bool) (time : Nat) (box : MailboxId)
    (v : Value) (fuel : Nat) (c : Crew σ) : Option Value × Crew σ :=
  let (got, _, c) := c.awaitBoth exec free time (tryGet box) (tryPut box v) fuel none none
  (got, c)

/-- Waits for space for a message while another thread takes one at a time.  Gives
what that thread took. -/
def putWhileGet (exec : σ → Drive σ DriveEnd) (free : Bool) (time : Nat) (box : MailboxId)
    (v : Value) (fuel : Nat) (c : Crew σ) : Option Value × Crew σ :=
  let (_, got, c) := c.awaitBoth exec free time (tryPut box v) (tryGet box) fuel none none
  (got, c)

/-- Success once nothing is queued or under way and some tasks have ended. -/
def tryQuiet (tasks : List TaskId) : Attempt σ Unit := fun c =>
  let ended (t : TaskId) : Bool := (c.pool.commons.task? t).any (·.done)
  if c.pool.commons.queue.isEmpty && c.busy.isEmpty && tasks.all ended then some ((), c)
  else none

/-- Lets the workers run until some tasks have ended and all is quiet. -/
def settle (exec : σ → Drive σ DriveEnd) (fuel : Nat) (tasks : List TaskId) (c : Crew σ) :
    Option Unit × Crew σ :=
  c.await exec true none (tryQuiet tasks) fuel

end Resumable.Crew
