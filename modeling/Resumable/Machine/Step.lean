import Resumable.Machine.Activation
import Resumable.Machine.Primitive

/-!
# The steps of the machine

The machine holds the activation at work and the callers that wait for it.  A step
runs one statement or one terminator, or hands the end of a call to the caller.

When a call suspends, the callers are left one by one, each saving a frame.  When
the machine resumes, the saved frames are entered one by one, the innermost first:
the end of each is handed to the next frame, and if one of them suspends again, the
frames that were not entered yet are put back.
-/

namespace Resumable

/-- The procedures that a machine can call. -/
structure Program where
  procedures : List Procedure
  deriving DecidableEq, Inhabited

namespace Program

/-- The procedure with an identity; of several the last one counts. -/
def procedure? (p : Program) (id : ProcId) : Option Procedure :=
  p.procedures.reverse.find? (·.id == id)

/-- The number of identities. -/
def size (p : Program) : Nat := (p.procedures.map (·.id)).eraseDups.length

def isEmpty (p : Program) : Bool := p.procedures.isEmpty

end Program

/-- What a caller waits for, and what it does with it. -/
inductive Awaiting where
  /-- The end of a call that must not suspend. -/
  | plain (callee : ProcId) (dst : Option LocalId)
  /-- The end of a call that may suspend. -/
  | resumable (dst : Option LocalId) (state : StateId) (save : List LocalId) (next : BlockId)
  deriving DecidableEq, Inhabited

/-- An activation that waits for a call. -/
structure Caller where
  activation : Activation
  awaiting : Awaiting
  deriving DecidableEq, Inhabited

/-- What the machine does next. -/
inductive Focus where
  /-- Begins a call. -/
  | call (target : ProcId) (args : List Value)
  /-- Enters the activation of a frame again, with the end of the inner call. -/
  | reenter (frame : Frame) (completion : Completion)
  | run (a : Activation)
  /-- Hands the end of a call to whoever waits for it. -/
  | deliver (outcome : Outcome)
  deriving DecidableEq, Inhabited

structure Config where
  focus : Focus
  /-- The activations that wait for the one at work, innermost first. -/
  callers : List Caller
  /-- The saved frames that are still to be entered, in a resumed run. -/
  outer : Option (List Frame)
  deriving DecidableEq, Inhabited

/-- What a step leads to. -/
inductive Progress where
  | running (c : Config)
  | halted (result : Except MachineFault Outcome)
  deriving Inhabited

def Progress.ofExcept : Except MachineFault Config → Progress
  | .ok c => .running c
  | .error fault => .halted (.error fault)

namespace Config

/-- The start of a call. -/
def ofCall (target : ProcId) (args : List Value) : Config :=
  { focus := .call target args, callers := [], outer := none }

/-- The start of a resumed run.  The innermost frame is given unit. -/
def ofFrames (frames : List Frame) : Config :=
  { focus := .deliver (.returned .unit), callers := [], outer := some frames }

/-! ## Inside the machine -/

/-- Goes on with an activation. -/
def running (c : Config) (a : Activation) : Config := { c with focus := .run a }

/-- Hands the end of a call to the innermost caller. -/
def delivering (c : Config) (outcome : Outcome) : Config :=
  { c with focus := .deliver outcome }

/-- Begins a call that an activation waits for. -/
def calling (c : Config) (a : Activation) (awaiting : Awaiting) (target : ProcId)
    (args : List Value) : Config :=
  { c with focus := .call target args, callers := { activation := a, awaiting } :: c.callers }

/-- Goes to a block of an activation. -/
def goto (c : Config) (a : Activation) (id : BlockId) : Except MachineFault Config := do
  return c.running (← a.enter id)

/-- Raises a value in an activation: its handler takes it, or its caller does. -/
def raise (c : Config) (a : Activation) (v : Value) : Except MachineFault Config :=
  match a.block.handler with
  | some h => do c.goto (← a.store h.bind v) h.target
  | none => .ok (c.delivering (.completed (.exception v)))

/-- Stores the value of a completion and goes on, or raises its exception. -/
def complete (c : Config) (a : Activation) (dst : Option LocalId) :
    Completion → Except MachineFault Config
  | .value v => do return c.running (← a.storeTo dst v)
  | .exception v => c.raise a v

/-- Runs a statement, given the text of a value; `a` is the activation past it. -/
def afterStmt (text : Value → String) (c : Config) (a : Activation) :
    Stmt → Except MachineFault Config
  | .assign dst rvalue => do c.complete a (some dst) (← a.compute text rvalue)
  | .call dst func args => do
    return c.calling a (.plain func.target dst) func.target (← a.evaluateAll args)
  | .restore slots => do return c.running (← a.restore slots)
  | .resume dst => do
    let (completion, a) ← a.takeCompletion
    c.complete a dst completion

/-- The block that a switch goes to. -/
def switchTarget (n : Int64) (cases : List (Int64 × BlockId)) (fallback : BlockId) : BlockId :=
  match cases.find? (·.1 == n) with
  | some (_, target) => target
  | none => fallback

/-- Runs the terminator of a block. -/
def afterTerminator (c : Config) (a : Activation) : Terminator → Except MachineFault Config
  | .ret none => .ok (c.delivering (.returned .unit))
  | .ret (some o) => do return c.delivering (.returned (← a.evaluate o))
  | .goto target => c.goto a target
  | .branch cond thenBlock elseBlock => do
    match ← a.evaluate cond with
    | .bool b => c.goto a (if b then thenBlock else elseBlock)
    | v => .error (.badBranch a.proc.id v.typeName)
  | .switch value cases fallback => do
    match ← a.evaluate value with
    | .int n => c.goto a (switchTarget n cases fallback)
    | v => .error (.badSwitch a.proc.id v.typeName)
  | .throw value => do c.raise a (← a.evaluate value)
  | .unreachable => .error (.reachedUnreachable a.proc.id a.block.id)
  | .dispatch fresh states => do c.goto a (← a.dispatch fresh states)
  | .suspendCall dst func args state save next => do
    return c.calling a (.resumable dst state save next) func.target (← a.evaluateAll args)

/-- Hands a completion to a caller, which `c` no longer holds. -/
def afterCall (c : Config) (caller : Caller) (completion : Completion) :
    Except MachineFault Config :=
  match caller.awaiting, completion with
  | .plain _ dst, completion => c.complete caller.activation dst completion
  | .resumable dst _ _ next, .value v => do c.goto (← caller.activation.storeTo dst v) next
  | .resumable .., .exception v => c.raise caller.activation v

/-- The activation of a call. -/
def entered (program : Program) (c : Config) (target : ProcId) (args : List Value) :
    Except MachineFault Config :=
  match program.procedure? target with
  | none => .error (.unknownProcedure target)
  | some proc =>
    if proc.hasBody then do return c.running (← Activation.fresh proc args)
    else .error (.noBody target)

/-- The activation of a frame. -/
def reentered (program : Program) (c : Config) (frame : Frame) (completion : Completion) :
    Except MachineFault Config :=
  match program.procedure? frame.proc with
  | none => .error (.unknownProcedure frame.proc)
  | some proc =>
    if proc.attrs.woven then do return c.running (← Activation.resumed proc frame completion)
    else .error (.notWoven proc.id)

/-! ## Steps -/

variable {σ : Type}

/-- Lets a primitive run in the place of a procedure. -/
def perform (c : Config) (p : Primitive) (args : List Value) (again : Bool) :
    Drive σ Progress := do
  return .ofExcept ((← p.perform args again).map c.delivering)

/-- A caller gives up the worker: it saves a frame and its own caller goes on. -/
def suspendCaller (c : Config) (caller : Caller) : Drive σ Progress :=
  let a := caller.activation
  match caller.awaiting with
  | .plain callee _ => return .halted (.error (.notSuspensionPoint a.proc.id callee))
  | .resumable _ state save _ =>
    match a.save save with
    | .error fault => return .halted (.error fault)
    | .ok slots => do
      Drive.request (.unwind { proc := a.proc.id, state, slots })
      return .running (c.delivering .suspended)

/-- Ends the run, or goes on with the next saved frame. -/
def finish (c : Config) (outcome : Outcome) : Drive σ Progress :=
  match c.outer, outcome with
  | none, outcome => return .halted (.ok outcome)
  | some frames, .suspended => do
    Drive.request (.unwindRest frames)
    return .halted (.ok .suspended)
  | some [], .completed completion => do
    Drive.request .settle
    return .halted (.ok (.completed completion))
  | some (frame :: frames), .completed completion =>
    return .running { c with focus := .reenter frame completion, outer := some frames }

def step (program : Program) (c : Config) : Drive σ Progress :=
  match c.focus with
  | .call target args =>
    match Primitive.ofProc? target with
    | some p => c.perform p args false
    | none => return .ofExcept (c.entered program target args)
  | .reenter frame completion =>
    match Primitive.ofProc? frame.proc with
    | some p => c.perform p frame.slots true
    | none => return .ofExcept (c.reentered program frame completion)
  | .run a =>
    match a.rest with
    | s :: rest => do
      let text ← Drive.request .texts
      return .ofExcept (c.afterStmt text { a with rest } s)
    | [] => return .ofExcept (c.afterTerminator a a.block.terminator)
  | .deliver outcome =>
    match c.callers, outcome with
    | [], outcome => c.finish outcome
    | caller :: callers, .completed completion =>
      return .ofExcept ({ c with callers }.afterCall caller completion)
    | caller :: callers, .suspended => { c with callers }.suspendCaller caller

/-- Runs to the end, for a number of steps at most.  A step that asks for nothing
leads straight to the next one. -/
def run (program : Program) : Nat → Config → Drive σ (Except MachineFault Outcome)
  | 0, _ => .diverge
  | fuel + 1, c =>
    match (c.step program : Drive σ Progress) with
    | .done (.running c) => run program fuel c
    | .done (.halted result) => .done result
    | other => other.bind fun
      | .running c => run program fuel c
      | .halted result => .done result

/-- A run is a step and then, if that does not halt, the rest of the run. -/
theorem run_succ (program : Program) (fuel : Nat) (c : Config) :
    run (σ := σ) program (fuel + 1) c =
      (c.step program).bind fun
        | .running c => run program fuel c
        | .halted result => .done result := by
  rw [run]
  generalize (c.step program : Drive σ Progress) = d
  cases d with
  | done p => cases p <;> rfl
  | _ => rfl

end Config

end Resumable
