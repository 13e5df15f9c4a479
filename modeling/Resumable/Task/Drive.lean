import Resumable.Task.Fiber

/-!
# What a body does

The body of a task never touches the runtime.  It asks: `Drive` is a tree of
requests, each with a continuation for every answer.  So a body is any function
that gives such a tree, and what holds for all of them holds whatever they
compute.

A body with a state of its own commits it as it goes, since a request may end the
drive.

Drives are put in sequence by `bind`: the second one takes the place of the end of
the first.
-/

namespace Resumable

/-- What a script or another body reports while it runs. -/
inductive Event where
  | got (message : Value)
  | getWaits
  | put
  | putWaits (message : Value)
  | getNb (message : Option Value)
  | putNb (accepted : Bool)
  | started (result : Except TaskError Unit)
  | current (task : Option TaskId)
  | fiber (text : String)
  | said (text : String)
  deriving Inhabited

/-- A request of a body to the runtime. -/
inductive Op where
  -- mailboxes
  | getNb (box : MailboxId)
  | putNb (box : MailboxId) (message : Value)
  /-- Takes a message; if there is none, the task is registered as the consumer and
  the reason to pause is recorded. -/
  | get (box : MailboxId)
  /-- Adds a message; if there is no space, the task is registered as a producer
  and the reason to pause is recorded. -/
  | put (box : MailboxId) (message : Value)
  | makeBox (max : Nat)
  /-- Puts a message after a number of milliseconds. -/
  | timer (delay : Nat) (box : MailboxId) (message : Value)
  -- output
  | print (value : Value)
  /-- The texts that values have now. -/
  | texts
  | report (who : String) (event : Event)
  -- the fiber
  | unwind (frame : Frame)
  | rewind
  | unwindRest (frames : List Frame)
  | settle
  | isSuspended
  | pause (reason : PauseReason)
  | offer (value : Value)
  | fiberText
  -- tasks
  | currentTask
  /-- Starts a task on the executor of the current one. -/
  | start (task : TaskId)
  | resume (task : TaskId)
  | setFlag (flag : String) (raised : Bool)
  /-- Shuts the executor down. -/
  | shutdown
  deriving Inhabited

/-- The type of the answer to a request. -/
def Op.Reply : Op → Type
  | .getNb _ => Option Value
  | .putNb _ _ => Bool
  | .get _ => Option Value
  | .put _ _ => Bool
  | .makeBox _ => MailboxId
  | .timer _ _ _ => Unit
  | .print _ => Unit
  | .texts => Value → String
  | .report _ _ => Unit
  | .unwind _ => Unit
  | .rewind => List Frame
  | .unwindRest _ => Unit
  | .settle => Unit
  | .isSuspended => Bool
  | .pause _ => Unit
  | .offer _ => Unit
  | .fiberText => String
  | .currentTask => Option TaskId
  | .start _ => Except TaskError Unit
  | .resume _ => Unit
  | .setFlag _ _ => Unit
  | .shutdown => Unit

/-- A run of a body with state `σ` that ends with an `α`. -/
inductive Drive (σ α : Type) where
  | done (a : α)
  /-- The body breaks the rules of the runtime. -/
  | violate (message : String)
  /-- The body does not end within its bound on steps. -/
  | diverge
  | commit (state : σ) (next : Unit → Drive σ α)
  | ask (op : Op) (next : op.Reply → Drive σ α)

/-- How a drive of a body ends. -/
inductive DriveEnd where
  | ready (result : TaskResult)
  /-- The body stopped; the fiber may know why. -/
  | pending
  /-- The body broke down. -/
  | panicked (message : String)
  deriving Inhabited

namespace Drive

variable {σ τ α β : Type}

def bind : Drive σ α → (α → Drive σ β) → Drive σ β
  | .done a, f => f a
  | .violate message, _ => .violate message
  | .diverge, _ => .diverge
  | .commit s next, f => .commit s fun u => (next u).bind f
  | .ask op next, f => .ask op fun r => (next r).bind f

instance : Monad (Drive σ) where
  pure := .done
  bind := .bind

@[simp] theorem bind_done (a : α) (f : α → Drive σ β) : (done a).bind f = f a := rfl

@[simp] theorem bind_violate (message : String) (f : α → Drive σ β) :
    (violate message).bind f = violate message := rfl

@[simp] theorem bind_diverge (f : α → Drive σ β) : (diverge : Drive σ α).bind f = diverge := rfl

@[simp] theorem bind_commit (s : σ) (next : Unit → Drive σ α) (f : α → Drive σ β) :
    (commit s next).bind f = commit s fun u => (next u).bind f := rfl

@[simp] theorem bind_ask (op : Op) (next : op.Reply → Drive σ α) (f : α → Drive σ β) :
    (ask op next).bind f = ask op fun r => (next r).bind f := rfl

/-- Asks for one thing. -/
def request (op : Op) : Drive σ op.Reply := .ask op .done

/-- Commits a state. -/
def store (s : σ) : Drive σ Unit := .commit s .done

/-- The same run with a larger state around the committed ones. -/
def mapState (f : σ → τ) : Drive σ α → Drive τ α
  | .done a => .done a
  | .violate message => .violate message
  | .diverge => .diverge
  | .commit s next => .commit (f s) fun u => (next u).mapState f
  | .ask op next => .ask op fun r => (next r).mapState f

end Drive

end Resumable
