import Resumable.Task.Pool

/-!
# Workers

A pool of tasks with the workers that drive them.  Idle workers take tasks out of
the queue in order.  The drives that are under way take turns, and a turn ends with
the drive or with the millisecond, so a body that polls a mailbox keeps no other
worker from putting something in.

A body that breaks the rules brings its worker down.  The task stays as it is, and
the workers that are left go on.
-/

namespace Resumable

/-- A drive that is under way on a worker. -/
structure Ongoing (σ : Type) where
  task : TaskId
  rest : Drive σ DriveEnd
  fiber : Fiber
  body : σ

structure Crew (σ : Type) where
  pool : TaskPool σ
  /-- The number of workers that are left. -/
  workers : Nat
  /-- The drives that are under way, one a worker at most, in the order of their
  turns. -/
  busy : List (Ongoing σ)
  /-- The requests since the clock last moved. -/
  work : Nat

namespace Crew

variable {σ : Type}

/-- A pool with a number of workers that are all idle. -/
def ofPool (pool : TaskPool σ) (workers : Nat) : Crew σ := { pool, workers, busy := [], work := 0 }

def now (c : Crew σ) : Nat := c.pool.commons.now

def withCommons (c : Crew σ) (commons : Commons) : Crew σ :=
  { c with pool := { c.pool with commons } }

/-- Moves the clock on to a time. -/
def advance (c : Crew σ) (time : Nat) : Crew σ :=
  { c.withCommons (c.pool.commons.advance time) with work := 0 }

/-- Counts requests as work; those of a millisecond move the clock on. -/
def spend (c : Crew σ) (requests : Nat) : Crew σ :=
  if c.work + requests < Commons.pace then { c with work := c.work + requests }
  else { c.withCommons c.pool.commons.tick with work := 0 }

/-- An idle worker, if there is one, takes the next task out of the queue. -/
def assign (exec : σ → Drive σ DriveEnd) (c : Crew σ) : Crew σ :=
  if c.busy.length < c.workers then
    match c.pool.commons.queue with
    | [] => c
    | t :: queue =>
      let c := c.withCommons { c.pool.commons with queue }
      match c.pool.beginDrive? exec t with
      | none => c
      | some (rest, scene) =>
        { c.withCommons scene.commons with
          busy := c.busy ++ [{ task := t, rest, fiber := scene.fiber, body := scene.body }] }
  else c

/-- The drive whose turn it is goes on.  There is none if all workers are idle and
stay so. -/
def turn? (exec : σ → Drive σ DriveEnd) (c : Crew σ) : Option (Crew σ) :=
  let c := c.assign exec
  match c.busy with
  | [] => none
  | d :: busy =>
    let share := Commons.pace - c.work
    match d.rest.runFor share { commons := c.pool.commons, fiber := d.fiber, body := d.body } with
    | (.underWay rest, scene) =>
      let d := { d with rest, fiber := scene.fiber, body := scene.body }
      some ({ c.withCommons scene.commons with busy := busy ++ [d] }.spend share)
    | (.ended ending left, scene) =>
      let (ending, pool) := c.pool.endDrive d.task ending scene
      let workers := match ending with
        | .finished _ => c.workers
        | _ => c.workers - 1
      some ({ c with pool, workers, busy }.spend (share - left + 1))

/-- Lets the drives that are under way come to their end. -/
def finishBusy (exec : σ → Drive σ DriveEnd) : Nat → Crew σ → Crew σ
  | 0, c => c
  | fuel + 1, c =>
    if c.busy.isEmpty then c
    else match c.turn? exec with
      | some c => finishBusy exec fuel c
      | none => c

/-- Empties the queue with a number of workers, one after the other when they come
down. -/
def drainWith (exec : σ → Drive σ DriveEnd) (fuel : Nat) : Nat → TaskPool σ → Nat × TaskPool σ
  | 0, s => (0, s)
  | workers + 1, s =>
    match s.drain exec fuel with
    | (_, .finished (), s) => (workers + 1, s)
    | (_, _, s) => drainWith exec fuel workers s

/-- Shuts the executor down.  The workers first drive what is in the queue; nothing is
accepted any more meanwhile. -/
def shutdown (exec : σ → Drive σ DriveEnd) (fuel : Nat) (c : Crew σ) : Crew σ :=
  let c := finishBusy exec fuel (c.withCommons { c.pool.commons with closed := true })
  let (workers, pool) := drainWith exec fuel c.workers c.pool
  { c with pool, workers }

end Crew

end Resumable
