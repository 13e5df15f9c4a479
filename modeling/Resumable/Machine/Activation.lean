import Resumable.Machine.Operator
import Resumable.Procedure.Graph
import Resumable.Task.Fiber

/-!
# Activations

A procedure at work: its locals, the place it has come to, and, when it was entered
again after a suspension, what the frame and the inner call have left for it.
-/

namespace Resumable

/-- What a resumed activation has not yet taken. -/
structure Resumption where
  state : StateId
  /-- The saved values, until a `restore` takes them. -/
  slots : Option (List Value)
  /-- How the inner call ended, until a `resume` takes it. -/
  completion : Option Completion
  deriving DecidableEq, Inhabited

structure Activation where
  proc : Procedure
  /-- The value of each local, by number. -/
  locals : List Value
  resumption : Option Resumption
  block : Block
  /-- The statements of the block that are still to run. -/
  rest : List Stmt
  deriving DecidableEq, Inhabited

namespace Activation

/-! ## Locals -/

def read (a : Activation) (id : LocalId) : Except MachineFault Value :=
  match a.locals[id.index]? with
  | some v => .ok v
  | none => .error (.noLocal a.proc.id id)

/-- Stores a value in one of the locals of a procedure. -/
def storeIn (proc : ProcId) (locals : List Value) (id : LocalId) (v : Value) :
    Except MachineFault (List Value) :=
  if id.index < locals.length then .ok (locals.set id.index v)
  else .error (.noLocal proc id)

/-- Stores values in locals, in order. -/
def storeAllIn (proc : ProcId) : List Value → List (LocalId × Value) →
    Except MachineFault (List Value)
  | locals, [] => .ok locals
  | locals, (id, v) :: more => do storeAllIn proc (← storeIn proc locals id v) more

def store (a : Activation) (id : LocalId) (v : Value) : Except MachineFault Activation := do
  return { a with locals := ← storeIn a.proc.id a.locals id v }

/-- Stores a value in a local, if there is one to store it in. -/
def storeTo (a : Activation) (dst : Option LocalId) (v : Value) :
    Except MachineFault Activation :=
  match dst with
  | some id => a.store id v
  | none => .ok a

def evaluate (a : Activation) : Operand → Except MachineFault Value
  | .local id => a.read id
  | .const c => .ok (.ofConst c)

def evaluateAll (a : Activation) : List Operand → Except MachineFault (List Value)
  | [] => .ok []
  | o :: more => do return (← a.evaluate o) :: (← a.evaluateAll more)

/-- The values of locals, in order. -/
def save (a : Activation) : List LocalId → Except MachineFault (List Value)
  | [] => .ok []
  | id :: more => do return (← a.read id) :: (← a.save more)

/-- The value of a right-hand side, given the text of a value. -/
def compute (a : Activation) (text : Value → String) :
    RValue → Except MachineFault Completion
  | .use o => do return .value (← a.evaluate o)
  | .binary op l r => do op.apply text (← a.evaluate l) (← a.evaluate r)
  | .unary op o => do op.apply (← a.evaluate o)

/-! ## Blocks -/

/-- An activation at the start of a block. -/
def atBlock (proc : Procedure) (locals : List Value) (resumption : Option Resumption)
    (id : BlockId) : Except MachineFault Activation :=
  match proc.block? id with
  | some block => .ok { proc, locals, resumption, block, rest := block.statements }
  | none => .error (.noBlock proc.id id)

/-- Goes to a block. -/
def enter (a : Activation) (id : BlockId) : Except MachineFault Activation :=
  atBlock a.proc a.locals a.resumption id

/-- Every local of a procedure before anything is stored. -/
def blank (proc : Procedure) : List Value := List.replicate proc.locals.length .unit

/-- A call of a procedure. -/
def fresh (proc : Procedure) (args : List Value) : Except MachineFault Activation :=
  if args.length ≠ proc.params.length then
    .error (.arity proc.id proc.params.length args.length)
  else do
    let locals ← storeAllIn proc.id (blank proc) ((proc.params.map (·.id)).zip args)
    atBlock proc locals none proc.entryBlock

/-- A second entry into a procedure, after the inner call has ended. -/
def resumed (proc : Procedure) (frame : Frame) (completion : Completion) :
    Except MachineFault Activation :=
  atBlock proc (blank proc)
    (some { state := frame.state, slots := some frame.slots, completion := some completion })
    proc.entryBlock

/-! ## Resuming -/

/-- Loads the saved values into locals. -/
def restore (a : Activation) (slots : List LocalId) : Except MachineFault Activation :=
  match a.resumption with
  | some r =>
    match r.slots with
    | some saved =>
      if saved.length ≠ slots.length then
        .error (.slotCount a.proc.id slots.length saved.length)
      else do
        let locals ← storeAllIn a.proc.id a.locals (slots.zip saved)
        return { a with locals, resumption := some { r with slots := none } }
    | none => .error (.restoreOutsideResume a.proc.id)
  | none => .error (.restoreOutsideResume a.proc.id)

/-- Takes the end of the inner call. -/
def takeCompletion (a : Activation) : Except MachineFault (Completion × Activation) :=
  match a.resumption with
  | some r =>
    match r.completion with
    | some completion =>
      .ok (completion, { a with resumption := some { r with completion := none } })
    | none => .error (.resumedTwice a.proc.id)
  | none => .error (.resumedTwice a.proc.id)

/-- The block that a `dispatch` goes to. -/
def dispatch (a : Activation) (fresh : BlockId) (states : List (StateId × BlockId)) :
    Except MachineFault BlockId :=
  match a.resumption with
  | none => .ok fresh
  | some r =>
    match states.find? (·.1 == r.state) with
    | some (_, block) => .ok block
    | none => .error (.noState a.proc.id r.state)

end Activation

end Resumable
