import Resumable.Machine.Operator
import Resumable.Task.Drive

/-!
# Primitives at work

A primitive that has to wait saves a frame of its own, with what it needs to try
again, and suspends.  When the task goes on, that frame comes first: the primitive
runs again from its slots.

Ending the task suspends as well, but saves nothing, since there is nothing to come
back to.
-/

namespace Resumable

/-- How a call ends for its caller. -/
inductive Outcome where
  | completed (completion : Completion)
  /-- The callee gave up the worker; its frames are saved. -/
  | suspended
  deriving DecidableEq, Inhabited

def Outcome.returned (v : Value) : Outcome := .completed (.value v)

namespace Primitive

variable {σ : Type}

/-- The state of a frame of a primitive. -/
def retryState : StateId := ⟨1⟩

/-- Saves a frame for another attempt. -/
def suspendWith (p : Primitive) (slots : List Value) :
    Drive σ (Except MachineFault Outcome) := do
  Drive.request (.unwind { proc := p.procId, state := retryState, slots })
  return .ok .suspended

def mailboxArg? (args : List Value) : Option MailboxId := args.head?.bind Value.mailbox?

/-- The first argument, or unit. -/
def firstOr (args : List Value) : Value := args.headD .unit

/-- The time that a wait takes; a negative one takes none. -/
def duration? (args : List Value) : Option Nat :=
  (args.head?.bind Value.int?).map fun n => n.toInt.toNat

/-- Waits for an alarm to arrive in a mailbox. -/
def awaitAlarm (alarm : MailboxId) : Drive σ (Except MachineFault Outcome) := do
  match ← Drive.request (.get alarm) with
  | some _ => return .ok (.returned .unit)
  | none => sleep.suspendWith [.mailbox alarm]

/-- Runs a primitive.  `again` says that it runs from the slots of its own frame. -/
def perform (p : Primitive) (args : List Value) (again : Bool) :
    Drive σ (Except MachineFault Outcome) :=
  match p with
  | .print => do
    Drive.request (.print (firstOr args))
    return .ok (.returned .unit)
  | .getNb =>
    match mailboxArg? args with
    | none => return .error (.wantsMailbox p)
    | some box => do
      let message ← Drive.request (.getNb box)
      return .ok (.returned (message.getD .unit))
  | .putNb =>
    match args with
    | .mailbox box :: message :: _ => do
      let accepted ← Drive.request (.putNb box message)
      return .ok (.returned (.bool accepted))
    | _ => return .error (.wantsMailboxAndMessage p)
  | .yield =>
    if again then return .ok (.returned .unit)
    else do
      match args with
      | v :: _ => Drive.request (.offer v)
      | [] => pure ()
      Drive.request (.pause .yielded)
      p.suspendWith []
  | .get =>
    match mailboxArg? args with
    | none => return .error (.wantsMailbox p)
    | some box => do
      match ← Drive.request (.get box) with
      | some message => return .ok (.returned message)
      | none => p.suspendWith args
  | .put =>
    match args with
    | .mailbox box :: message :: _ => do
      match ← Drive.request (.put box message) with
      | true => return .ok (.returned .unit)
      | false => p.suspendWith [.mailbox box, message]
    | _ => return .error (.wantsMailboxAndMessage p)
  | .sleep =>
    if again then
      match mailboxArg? args with
      | none => return .error (.wantsMailbox p)
      | some alarm => awaitAlarm alarm
    else
      match duration? args with
      | none => return .error (.wantsDuration p)
      | some delay => do
        let alarm ← Drive.request (.makeBox 1)
        Drive.request (.timer delay alarm .unit)
        awaitAlarm alarm
  | .exit => do
    Drive.request (.pause (.done (.ok (firstOr args))))
    return .ok .suspended
  | .errorExit => do
    Drive.request (.pause (.done (.error (.raised (firstOr args)))))
    return .ok .suspended

end Primitive

end Resumable
