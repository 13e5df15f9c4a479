import Resumable.Task.Commons

/-!
# Driving bodies

Runs the requests of a body against what tasks share, and drives the tasks of a pool
one at a time from the queue.

Requests take time, `Commons.pace` of them a millisecond, so a body that polls a
mailbox sees a timer fire.  A drive can also be run for a number of requests only;
what is left of it is a drive again.

The state of a body is a parameter, and so is the function that says what a body
in a state does.
-/

namespace Resumable

/-! ## One drive -/

/-- What a drive works on. -/
structure Scene (σ : Type) where
  commons : Commons
  fiber : Fiber
  body : σ
  deriving Inhabited

/-- How a run ends: with a value, by breaking the rules, or not at all within its
bound. -/
inductive Ending (α : Type) where
  | finished (a : α)
  | violated (message : String)
  | diverged
  deriving DecidableEq, Inhabited

/-- Answers a request. -/
def Op.perform (c : Commons) (f : Fiber) :
    (op : Op) → Except Commons.Violation op.Reply × Commons × Fiber
  | .getNb box => let (r, c) := c.getNb box; (.ok r, c, f)
  | .putNb box v => let (r, c) := c.putNb box v; (.ok r, c, f)
  | .get box => c.get f box
  | .put box v => c.put f box v
  | .makeBox max => let (r, c) := c.addBox (.bounded max); (.ok r, c, f)
  | .timer delay box v => (.ok (), c.timerAfter delay box v, f)
  | .print v => (.ok (), c.print v, f)
  | .texts => (.ok c.valueText, c, f)
  | .report who event => (.ok (), c.report who event, f)
  | .unwind frame => (.ok (), c, f.unwind frame)
  | .rewind => let (r, f) := f.rewind; (.ok r, c, f)
  | .unwindRest frames => (.ok (), c, f.unwindRest frames)
  | .settle => (.ok (), c, f.settle)
  | .isSuspended => (.ok f.isSuspended, c, f)
  | .pause reason => (.ok (), c, f.pause reason)
  | .offer v => (.ok (), c, f.offer v)
  | .fiberText => (.ok (f.text c.valueText), c, f)
  | .currentTask => (.ok f.task, c, f)
  | .start t => let (r, c) := c.startFrom f.task t; (.ok r, c, f)
  | .resume t => (.ok (), c.resume t, f)
  | .setFlag flag raised => (.ok (), c.setFlag flag raised, f)
  | .shutdown => (.ok (), { c with closed := true }, f)

/-- Runs a drive to its end, at one time. -/
def Drive.run {σ α : Type} : Drive σ α → Scene σ → Ending α × Scene σ
  | .done a, s => (.finished a, s)
  | .violate message, s => (.violated message, s)
  | .diverge, s => (.diverged, s)
  | .commit body next, s => (next ()).run { s with body }
  | .ask op next, s =>
    match op.perform s.commons s.fiber with
    | (.ok r, commons, fiber) => (next r).run { s with commons, fiber }
    | (.error v, commons, fiber) => (.violated v.message, { s with commons, fiber })

/-- Runs a drive to its end while time goes by.  `left` requests are left in the
millisecond. -/
def Drive.runTimed {σ α : Type} : Drive σ α → (left : Nat) → Scene σ → Ending α × Scene σ
  | .done a, _, s => (.finished a, s)
  | .violate message, _, s => (.violated message, s)
  | .diverge, _, s => (.diverged, s)
  | .commit body next, left, s => (next ()).runTimed left { s with body }
  | .ask op next, left, s =>
    let c := if left = 0 then s.commons.tick else s.commons
    let left := if left = 0 then Commons.pace else left
    match op.perform c s.fiber with
    | (.ok r, commons, fiber) => (next r).runTimed (left - 1) { s with commons, fiber }
    | (.error v, commons, fiber) => (.violated v.message, { s with commons, fiber })

/-- How far a run for a number of requests gets. -/
inductive Stretch (σ α : Type) where
  /-- It ends, with a number of requests left. -/
  | ended (ending : Ending α) (left : Nat)
  | underWay (rest : Drive σ α)

/-- Runs a drive for a number of requests at most, at one time. -/
def Drive.runFor {σ α : Type} : Drive σ α → Nat → Scene σ → Stretch σ α × Scene σ
  | .done a, left, s => (.ended (.finished a) left, s)
  | .violate message, left, s => (.ended (.violated message) left, s)
  | .diverge, left, s => (.ended .diverged left, s)
  | .commit body next, left, s => (next ()).runFor left { s with body }
  | .ask op next, 0, s => (.underWay (.ask op next), s)
  | .ask op next, left + 1, s =>
    match op.perform s.commons s.fiber with
    | (.ok r, commons, fiber) => (next r).runFor left { s with commons, fiber }
    | (.error v, commons, fiber) =>
      (.ended (.violated v.message) left, { s with commons, fiber })

/-! ## Tasks -/

/-- What a task runs, and the fiber that it runs on. -/
structure Engine (σ : Type) where
  body : σ
  fiber : Fiber
  deriving Inhabited

structure TaskPool (σ : Type) where
  commons : Commons
  /-- The engines of the tasks, in the order of their numbers. -/
  engines : List (Engine σ)
  deriving Inhabited

namespace TaskPool

variable {σ : Type}

def empty : TaskPool σ := { commons := .empty, engines := [] }

/-- Makes a task. -/
def spawn (s : TaskPool σ) (body : σ) : TaskId × TaskPool σ :=
  let (t, commons) := s.commons.addTask
  (t, { commons, engines := s.engines ++ [{ body, fiber := .ofTask (some t) }] })

def engine? (s : TaskPool σ) (t : TaskId) : Option (Engine σ) :=
  if t.number = 0 then none else s.engines[t.number - 1]?

/-- What becomes of a task after a drive: it ends, or pauses.  A pause that has
nothing to wait for any more is over at once. -/
def conclude (c : Commons) (t : TaskId) : DriveEnd → Option PauseReason → Commons
  | .panicked message, _ => c.finish t (.error (.panicked message))
  | .ready result, _ => c.finish t result
  | .pending, some (.done result) => c.finish t result
  | .pending, reason =>
    let reason := reason.getD .yielded
    match c.task? t with
    | none => c
    | some r =>
      let paused := c.setTask t { r with reason := some reason, running := false }
      if paused.holds reason then paused else paused.resume t

/-- The reason that a drive leaves, and the state after it.  A body that broke down
leaves its reason on the fiber; one that goes on waiting keeps its place on the
mailboxes. -/
def takeReason (e : DriveEnd) (c : Commons) (f : Fiber) :
    Option PauseReason × Commons × Fiber :=
  match e with
  | .panicked _ =>
    let (c, f) := c.stopListening f
    (none, c, f)
  | .ready _ =>
    let (reason, f) := f.takeReason
    let (c, f) := c.stopListening f
    (reason, c, f)
  | .pending =>
    let (reason, f) := f.takeReason
    if reason.any (·.isDone) then
      let (c, f) := c.stopListening f
      (reason, c, f)
    else (reason, c, f)

/-- The drive of a task, and the scene in which it begins. -/
def beginDrive? (exec : σ → Drive σ DriveEnd) (s : TaskPool σ) (t : TaskId) :
    Option (Drive σ DriveEnd × Scene σ) :=
  (s.engine? t).map fun engine =>
    let (commons, fiber) := s.commons.stopListening engine.fiber
    (exec engine.body, { commons, fiber, body := engine.body })

/-- The pool after a drive of a task that ended in a scene. -/
def endDrive (s : TaskPool σ) (t : TaskId) (ending : Ending DriveEnd) (scene : Scene σ) :
    Ending Unit × TaskPool σ :=
  let keep (commons : Commons) (fiber : Fiber) : TaskPool σ :=
    { commons, engines := s.engines.set (t.number - 1) { body := scene.body, fiber } }
  match ending with
  | .finished e =>
    let (reason, commons, fiber) := takeReason e scene.commons scene.fiber
    (.finished (), keep (conclude commons t e reason) fiber)
  | .violated message =>
    let (commons, fiber) := scene.commons.stopListening scene.fiber
    (.violated message, keep commons fiber)
  | .diverged => (.diverged, keep scene.commons scene.fiber)

/-- Drives the body of a task once. -/
def drive (exec : σ → Drive σ DriveEnd) (s : TaskPool σ) (t : TaskId) :
    Ending Unit × TaskPool σ :=
  match s.beginDrive? exec t with
  | none => (.finished (), s)
  | some (drive, scene) =>
    let (ending, scene) := drive.runTimed Commons.pace scene
    s.endDrive t ending scene

/-- Takes the next task out of the queue and drives it. -/
def step? (exec : σ → Drive σ DriveEnd) (s : TaskPool σ) :
    Option (TaskId × Ending Unit × TaskPool σ) :=
  match s.commons.queue with
  | [] => none
  | t :: rest => some (t, drive exec { s with commons := { s.commons with queue := rest } } t)

/-- Drives tasks from the queue until it is empty, at most `limit` of them, and
lists them.  A violation ends it. -/
def drain (exec : σ → Drive σ DriveEnd) :
    Nat → TaskPool σ → List TaskId × Ending Unit × TaskPool σ
  | 0, s => ([], .finished (), s)
  | limit + 1, s =>
    match step? exec s with
    | none => ([], .finished (), s)
    | some (t, .finished (), s) =>
      let (ran, ending, s) := drain exec limit s
      (t :: ran, ending, s)
    | some (t, ending, s) => ([t], ending, s)

end TaskPool

end Resumable
