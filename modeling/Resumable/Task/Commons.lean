import Resumable.Mailbox.Basic
import Resumable.Task.Fiber
import Resumable.Task.Timer
import Resumable.Task.Drive

/-!
# What tasks share

Everything that tasks have in common: the mailboxes, the records of the tasks, the executor
with its queue, the clock with its timers, the output and the flags.  Bodies and
their fibers are kept apart, so that an operation here can never run a body.

A task goes through four stages.  It is *created*; `start` hands it to the executor
and makes it *running*; when its body stops it is *paused* until `resume` hands it
to the executor again; and it is *done* in the end.  A running task stands in the
queue or is being driven, so `resume` has nothing to do for it.
-/

namespace Resumable

inductive TaskStatus where
  | created
  | running
  | paused
  | done
  deriving DecidableEq, Inhabited

def TaskStatus.name : TaskStatus → String
  | .created => "Created"
  | .running => "Running"
  | .paused => "Paused"
  | .done => "Done"

/-- The number of a mailbox for exit messages. -/
structure ExitBoxId where
  index : Nat
  deriving DecidableEq, Inhabited

/-- What is known about a task, its body and its fiber apart. -/
structure TaskRecord where
  started : Bool
  running : Bool
  done : Bool
  /-- The last reason to pause, or how it ended. -/
  reason : Option PauseReason
  result : Option TaskResult
  /-- The mailboxes to inform when the task ends, once for each entry. -/
  informed : List ExitBoxId
  /-- Whether the task has an executor. -/
  attached : Bool
  deriving Inhabited

namespace TaskRecord

def fresh : TaskRecord :=
  { started := false, running := false, done := false, reason := none, result := none
    informed := [], attached := false }

def status (r : TaskRecord) : TaskStatus :=
  if r.done then .done
  else if !r.started then .created
  else if r.running then .running
  else .paused

end TaskRecord

structure Commons where
  boxes : List (Mailbox Value)
  exitBoxes : List (Mailbox ExitMessage)
  /-- The tasks, in the order of their numbers. -/
  tasks : List TaskRecord
  /-- The tasks that the executor has accepted, in order. -/
  queue : List TaskId
  /-- The executor is shut down. -/
  closed : Bool
  /-- The executor accepts nothing for now. -/
  refusing : Bool
  /-- The time in milliseconds. -/
  now : Nat
  timers : TimerQueue (MailboxId × Value)
  /-- The printed values, in order. -/
  output : List Value
  /-- The flags that are raised. -/
  flags : List String
  /-- The reports of the bodies, in order. -/
  journal : List (String × Event)
  deriving Inhabited

namespace Commons

def empty : Commons :=
  { boxes := [], exitBoxes := [], tasks := [], queue := [], closed := false, refusing := false
    now := 0, timers := .empty, output := [], flags := [], journal := [] }

/-! ## Parts -/

def box? (c : Commons) (id : MailboxId) : Option (Mailbox Value) := c.boxes[id.index]?

def setBox (c : Commons) (id : MailboxId) (m : Mailbox Value) : Commons :=
  { c with boxes := c.boxes.set id.index m }

def addBox (c : Commons) (m : Mailbox Value) : MailboxId × Commons :=
  (⟨c.boxes.length⟩, { c with boxes := c.boxes ++ [m] })

def addExitBox (c : Commons) (m : Mailbox ExitMessage) : ExitBoxId × Commons :=
  (⟨c.exitBoxes.length⟩, { c with exitBoxes := c.exitBoxes ++ [m] })

/-- The record of a task.  Tasks are numbered from 1. -/
def task? (c : Commons) (t : TaskId) : Option TaskRecord :=
  if t.number = 0 then none else c.tasks[t.number - 1]?

def setTask (c : Commons) (t : TaskId) (r : TaskRecord) : Commons :=
  { c with tasks := c.tasks.set (t.number - 1) r }

def addTask (c : Commons) : TaskId × Commons :=
  (⟨c.tasks.length + 1⟩, { c with tasks := c.tasks ++ [.fresh] })

def print (c : Commons) (v : Value) : Commons := { c with output := c.output ++ [v] }

def report (c : Commons) (who : String) (event : Event) : Commons :=
  { c with journal := c.journal ++ [(who, event)] }

def setFlag (c : Commons) (flag : String) (raised : Bool) : Commons :=
  if raised then
    if flag ∈ c.flags then c else { c with flags := flag :: c.flags }
  else { c with flags := c.flags.filter (· ≠ flag) }

/-! ## Texts -/

def boxText (c : Commons) (id : MailboxId) : String :=
  match c.box? id with
  | some m => m.text id
  | none => Mailbox.address id

def valueText (c : Commons) : Value → String := Value.text c.boxText

/-- Everything printed, joined. -/
def outputText (c : Commons) : String := String.join (c.output.map c.valueText)

/-- The number and the status of a task, with the reason of a pause. -/
def taskText (c : Commons) (t : TaskId) : String :=
  let r := (c.task? t).getD .fresh
  let why := match r.status, r.reason with
    | .paused, some reason => ": " ++ reason.text c.valueText
    | _, _ => ""
  t.text ++ " [" ++ r.status.name ++ why ++ "]"

/-! ## Tasks and the executor -/

/-- Puts a task at the end of the queue, unless the executor refuses it. -/
def schedule? (c : Commons) (t : TaskId) : Option Commons :=
  if c.closed || c.refusing then none else some { c with queue := c.queue ++ [t] }

/-- Hands a task to the executor for the first time. -/
def start (c : Commons) (t : TaskId) : Except TaskError Unit × Commons :=
  if c.closed then (.error .executorShutdown, c)
  else match c.task? t with
    | none => (.error .noCurrentTask, c)
    | some r =>
      if r.started then (.error (.alreadyStarted t), c)
      else
        let begun := c.setTask t { r with started := true, running := true, attached := true }
        match begun.schedule? t with
        | some c' => (.ok (), c')
        | none =>
          (.error .executorShutdown,
            c.setTask t { r with started := false, running := false, attached := false })

/-- Starts a task on the executor of another one. -/
def startFrom (c : Commons) (current : Option TaskId) (t : TaskId) :
    Except TaskError Unit × Commons :=
  match current.bind c.task? with
  | some r => if r.attached then c.start t else (.error .noCurrentTask, c)
  | none => (.error .noCurrentTask, c)

/-- Hands a paused task to the executor again.  If that refuses it, it stays
paused. -/
def resume (c : Commons) (t : TaskId) : Commons :=
  match c.task? t with
  | none => c
  | some r =>
    if r.done || !r.started || r.running then c
    else
      let awake := c.setTask t { r with running := true }
      if r.attached then (awake.schedule? t).getD c else awake

/-- Resumes a task, if there is one. -/
def wake (c : Commons) : Option TaskId → Commons
  | some t => c.resume t
  | none => c

/-- Adds an exit message to an exit mailbox; if that is full the message is lost. -/
def notifyExit (c : Commons) (message : ExitMessage) (e : ExitBoxId) : Commons :=
  match c.exitBoxes[e.index]?.bind (·.give? message) with
  | some (consumer, m) => { c with exitBoxes := c.exitBoxes.set e.index m }.wake consumer
  | none => c

/-- Records how a task ended and informs the mailboxes that asked for it. -/
def finish (c : Commons) (t : TaskId) (result : TaskResult) : Commons :=
  match c.task? t with
  | none => c
  | some r =>
    let ended := c.setTask t { r with
      done := true, running := false, reason := some (.done result), result := some result
      informed := [], attached := false }
    r.informed.foldl (fun c e => c.notifyExit { task := t, result } e) ended

/-- Asks for an exit message of a task, which comes at once if the task has
ended. -/
def informOnExit (c : Commons) (t : TaskId) (e : ExitBoxId) : Commons :=
  match c.task? t with
  | none => c
  | some r =>
    match r.result with
    | some result => c.notifyExit { task := t, result } e
    | none => c.setTask t { r with informed := r.informed ++ [e] }

/-- Takes an exit message. -/
def takeExit? (c : Commons) (e : ExitBoxId) : Option (ExitMessage × Commons) :=
  match c.exitBoxes[e.index]?.bind (·.take?) with
  | some (message, producer, m) =>
    some (message, { c with exitBoxes := c.exitBoxes.set e.index m }.wake producer)
  | none => none

/-! ## Mailboxes -/

/-- Takes a message without waiting. -/
def getNb (c : Commons) (id : MailboxId) : Option Value × Commons :=
  match (c.box? id).bind (·.take?) with
  | some (v, producer, m) => (some v, (c.setBox id m).wake producer)
  | none => (none, c)

/-- Adds a message without waiting, or hands it back. -/
def tryPut (c : Commons) (id : MailboxId) (v : Value) : Except Value Unit × Commons :=
  match (c.box? id).bind (·.give? v) with
  | some (consumer, m) => (.ok (), (c.setBox id m).wake consumer)
  | none => (.error v, c)

/-- Adds a message without waiting, and says whether it was accepted. -/
def putNb (c : Commons) (id : MailboxId) (v : Value) : Bool × Commons :=
  match (c.box? id).bind (·.give? v) with
  | some (consumer, m) => (true, (c.setBox id m).wake consumer)
  | none => (false, c)

/-- Why a task may not wait. -/
inductive Violation where
  | getOutsideTask
  | putOutsideTask
  | secondConsumer (task consumer : TaskId)
  deriving DecidableEq, Inhabited

def Violation.message : Violation → String
  | .getOutsideTask => "cooperative get outside a task"
  | .putOutsideTask => "cooperative put outside a task"
  | .secondConsumer task consumer =>
    task.text ++ " waits on a mailbox already awaited by " ++ consumer.text

/-- Takes a message for a fiber.  If there is none, the task of the fiber becomes
the consumer; a mailbox that already has another one is not to be waited on. -/
def get (c : Commons) (f : Fiber) (id : MailboxId) :
    Except Violation (Option Value) × Commons × Fiber :=
  match c.box? id with
  | none => (.ok none, c, f)
  | some m =>
    match m.take? with
    | some (v, producer, m') =>
      let m' := match f.task with
        | some t => m'.removeConsumer t
        | none => m'
      (.ok (some v), (c.setBox id m').wake producer, f)
    | none =>
      match f.task with
      | none => (.error .getOutsideTask, c, f)
      | some t =>
        match m.consumer with
        | some other =>
          if other = t then
            (.ok none, c.setBox id (m.await t), (f.listen id).pause (.waitingForMessage id))
          else (.error (.secondConsumer t other), c, f)
        | none =>
          (.ok none, c.setBox id (m.await t), (f.listen id).pause (.waitingForMessage id))

/-- Adds a message for a fiber.  If there is no space, the task of the fiber joins
the line of producers. -/
def put (c : Commons) (f : Fiber) (id : MailboxId) (v : Value) :
    Except Violation Bool × Commons × Fiber :=
  match c.box? id with
  | none => (.ok false, c, f)
  | some m =>
    match m.give? v with
    | some (consumer, m') =>
      let m' := match f.task with
        | some t => m'.removeProducer t
        | none => m'
      (.ok true, (c.setBox id m').wake consumer, f)
    | none =>
      match f.task with
      | none => (.error .putOutsideTask, c, f)
      | some t =>
        (.ok false, c.setBox id (m.enqueue t), (f.listen id).pause (.waitingForSpace id))

/-- Forgets a task as one that waits on a mailbox. -/
def forget (c : Commons) (t : TaskId) (id : MailboxId) : Commons :=
  match c.box? id with
  | some m => c.setBox id (m.removeListener t)
  | none => c

/-- Forgets the task of a fiber on all mailboxes that the fiber listens to. -/
def stopListening (c : Commons) (f : Fiber) : Commons × Fiber :=
  let quiet := { f with listening := [] }
  match f.task with
  | none => (c, quiet)
  | some t => (f.listening.foldl (fun c id => c.forget t id) c, quiet)

/-- Whether what a reason waits for has not happened yet. -/
def holds (c : Commons) : PauseReason → Bool
  | .waitingForMessage id => !((c.box? id).any (·.hasMessage))
  | .waitingForSpace id => !((c.box? id).any (·.hasSpace))
  | .yielded => false
  | .done _ => true
  | .custom condition => condition.flag ∉ c.flags

/-! ## Time -/

/-- Arms a timer. -/
def timerAfter (c : Commons) (delay : Nat) (id : MailboxId) (v : Value) : Commons :=
  { c with timers := c.timers.insert (c.now + delay) (id, v) }

/-- Moves the clock on and fires the timers that are due. -/
def advance (c : Commons) (time : Nat) : Commons :=
  let now := Nat.max c.now time
  let (due, timers) := c.timers.popExpired now
  due.foldl (fun c entry => (c.putNb entry.payload.1 entry.payload.2).2) { c with now, timers }

/-- The number of requests of bodies that take a millisecond. -/
def pace : Nat := 5000

/-- Lets a millisecond go by. -/
def tick (c : Commons) : Commons := c.advance (c.now + 1)

end Commons

end Resumable
