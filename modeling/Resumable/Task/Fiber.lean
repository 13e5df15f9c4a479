import Resumable.Value

/-!
# Fibers

A fiber is the saved call stack of a body that gave up its worker, with the reason
for it.  Each activation saves a frame on its way out, so the innermost one comes
first; on the way back in the frames are handed out in the same order.
-/

namespace Resumable

/-! ## Reasons -/

/-- Something outside the runtime that a task waits for: a flag that is to be
raised. -/
structure Condition where
  flag : String
  description : String
  deriving DecidableEq, Inhabited

namespace Condition

/-- The description of a condition that has none of its own. -/
def plainDescription : String := "custom condition"

end Condition

/-- Why a body does not run. -/
inductive PauseReason where
  | waitingForMessage (box : MailboxId)
  | waitingForSpace (box : MailboxId)
  /-- A voluntary break: the task goes straight back to the queue. -/
  | yielded
  /-- The end.  The task does not run again. -/
  | done (result : TaskResult)
  | custom (condition : Condition)
  deriving Inhabited

namespace PauseReason

def isDone : PauseReason → Bool
  | .done _ => true
  | _ => false

/-- The text of a reason, given the text of a value. -/
def text (value : Value → String) : PauseReason → String
  | .waitingForMessage _ => "waiting for message"
  | .waitingForSpace _ => "waiting for space"
  | .yielded => "yielded"
  | .done (.ok v) => "done: " ++ value v
  | .done (.error e) => "failed: " ++ e.text value
  | .custom c => c.description

end PauseReason

/-! ## Frames -/

/-- A saved activation. -/
structure Frame where
  proc : ProcId
  state : StateId
  slots : List Value
  deriving DecidableEq, Inhabited

/-- What a fiber was last used for. -/
inductive Cursor where
  /-- Running, with nothing saved. -/
  | idle
  /-- Frames are being saved. -/
  | unwinding
  /-- Frames were handed out to be entered again. -/
  | rewinding
  deriving DecidableEq, Inhabited

def Cursor.name : Cursor → String
  | .idle => "Idle"
  | .unwinding => "Unwinding"
  | .rewinding => "Rewinding"

structure Fiber where
  /-- The saved activations, innermost first. -/
  frames : List Frame
  cursor : Cursor
  reason : Option PauseReason
  /-- A value for the driver of a generator. -/
  offered : Option Value
  /-- The mailboxes that hold the task of the fiber as a waiting task. -/
  listening : List MailboxId
  /-- The task that the fiber belongs to. -/
  task : Option TaskId
  deriving Inhabited

namespace Fiber

def ofTask (task : Option TaskId) : Fiber :=
  { frames := [], cursor := .idle, reason := none, offered := none, listening := [], task }

/-- A fiber that belongs to no task. -/
def detached : Fiber := ofTask none

/-- Saves the frame of the next activation out. -/
def unwind (f : Fiber) (frame : Frame) : Fiber :=
  { f with frames := f.frames ++ [frame], cursor := .unwinding }

/-- Hands out the saved frames. -/
def rewind (f : Fiber) : List Frame × Fiber :=
  (f.frames, { f with frames := [], cursor := .rewinding })

/-- Puts back frames that were handed out and not entered. -/
def unwindRest (f : Fiber) (rest : List Frame) : Fiber :=
  { f with frames := f.frames ++ rest, cursor := .unwinding }

/-- Ends the use of the frames that were handed out. -/
def settle (f : Fiber) : Fiber :=
  { f with cursor := if f.frames.isEmpty then .idle else .unwinding }

def isSuspended (f : Fiber) : Bool := !f.frames.isEmpty

/-- Records why the body stops. -/
def pause (f : Fiber) (reason : PauseReason) : Fiber :=
  { f with reason := some reason }

def takeReason (f : Fiber) : Option PauseReason × Fiber :=
  (f.reason, { f with reason := none })

def offer (f : Fiber) (v : Value) : Fiber :=
  { f with offered := some v }

def takeOffered (f : Fiber) : Option Value × Fiber :=
  (f.offered, { f with offered := none })

/-- Notes that a mailbox holds the task as a waiting task. -/
def listen (f : Fiber) (box : MailboxId) : Fiber :=
  if box ∈ f.listening then f else { f with listening := f.listening ++ [box] }

/-- The fiber in one line, given the text of a value. -/
def text (value : Value → String) (f : Fiber) : String :=
  "Fiber \x7b cursor: " ++ f.cursor.name
    ++ ", frames: " ++ f.frames.length.repr
    ++ ", pause_reason: "
    ++ (match f.reason with
        | none => "None"
        | some reason => "Some(PauseReason(" ++ reason.text value ++ "))")
    ++ ", listening: " ++ f.listening.length.repr ++ " \x7d"

end Fiber

end Resumable
