import Resumable.Machine.Step

/-!
# The machine as a body

The first drive calls the entry procedure.  Later drives enter the saved frames
again.
-/

namespace Resumable

structure Machine where
  program : Program
  entry : ProcId
  /-- The arguments of the entry procedure, until it is called. -/
  args : Option (List Value)
  deriving DecidableEq, Inhabited

namespace Machine

variable {σ : Type}

/-- A machine that is to call a procedure. -/
def ofEntry (program : Program) (entry : ProcId) (args : List Value) : Machine :=
  { program, entry, args := some args }

/-- Calls a procedure, for a number of steps at most. -/
def call (fuel : Nat) (program : Program) (id : ProcId) (args : List Value) :
    Drive σ (Except MachineFault Outcome) :=
  (Config.ofCall id args).run program fuel

/-- Enters the saved frames, the innermost first, for a number of steps at most. -/
def resume (fuel : Nat) (program : Program) : Drive σ (Except MachineFault Outcome) := do
  let frames ← Drive.request .rewind
  (Config.ofFrames frames).run program fuel

/-- What the end of a run is for the driver of the body. -/
def driveEnd : Except MachineFault Outcome → DriveEnd
  | .ok (.completed (.value v)) => .ready (.ok v)
  | .ok (.completed (.exception v)) => .ready (.error (.raised v))
  | .ok .suspended => .pending
  | .error fault => .ready (.error (.fault fault.message))

/-- Enters the saved frames if there are any, and calls the entry procedure if that
was not done before, for a number of steps at most. -/
def advance (fuel : Nat) (m : Machine) : Drive Machine (Except MachineFault Outcome) := do
  match ← Drive.request .isSuspended with
  | true => resume fuel m.program
  | false =>
    match m.args with
    | some args =>
      Drive.store { m with args := none }
      call fuel m.program m.entry args
    | none => return .error (.drivenAgain m.entry)

/-- Drives the machine once, for a number of steps at most. -/
def execute (fuel : Nat) (m : Machine) : Drive Machine DriveEnd := do
  return driveEnd (← m.advance fuel)

end Machine

end Resumable
