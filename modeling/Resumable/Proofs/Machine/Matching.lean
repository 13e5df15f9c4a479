import Resumable.Proofs.Machine.Agreement
import Resumable.Proofs.Machine.Interpretation
import Resumable.Proofs.Machine.Places

/-!
# Machines that do the same work

An interpretation of an original program keeps every activation on its call stack.  The
machine on the woven program does the same work, but some of its activations are saved
frames, with nothing but the locals that are live (`Program.Awaits`, `Program.Waits`).

`Program.Matches` relates a state of the interpretation to the states of the machine that
do its work.  Several states of the machine may match one of the interpretation, while the
machine leaves its callers or enters saved frames again; they are numbered, and the number
goes down until the interpretation takes its next step.
-/

namespace Resumable

/-- What an activation needs once its call has ended: the locals that the rest of the
block reads, or those that the handler reads. -/
def Liveness.Awaited (live : Liveness) (b : Block) (more : List Stmt) (dst : Option LocalId)
    (l : LocalId) : Prop :=
  l ∈ live.before b more ∧ l ∉ dst ∨ l ∈ live.onRaise b

/-- What the interpretation has on its stack is with the machine a caller or a frame. -/
inductive Waiter where
  | caller (c : Caller)
  | frame (f : Frame)

/-- Everything that waits in a machine, innermost first. -/
def waiters (callers : List Caller) (outer : Option (List Frame)) : List Waiter :=
  callers.map .caller ++ (outer.getD []).map .frame

/-- The frame of a yield. -/
def yieldFrame : Frame := ⟨Primitive.yield.procId, Primitive.retryState, []⟩

/-- A primitive that gives up the worker: the frames that it saves, and its reason. -/
inductive Leaves (args : List Value) : Primitive → List Frame → Option PauseReason → Prop
  | yield : Leaves args .yield [yieldFrame] (some .yielded)
  | exit : Leaves args .exit [] (some (.done (.ok (Primitive.firstOr args))))
  | errorExit :
    Leaves args .errorExit [] (some (.done (.error (.raised (Primitive.firstOr args)))))

theorem Leaves.suspends {args : List Value} {which : Primitive} {inner : List Frame}
    {reason : Option PauseReason} (h : Leaves args which inner reason) :
    which.suspends = true := by
  cases h <;> rfl

namespace Program

/-- A program has what another one has, and each procedure with a body does the work of
the original one. -/
structure Mirrors (original program : Program) : Prop where
  unknown : ∀ id, original.procedure? id = none → program.procedure? id = none
  known : ∀ id p, original.procedure? id = some p →
    ∃ w, program.procedure? id = some w ∧ w.hasBody = p.hasBody ∧
      (p.hasBody = true → ∃ live, program.Counterpart live p w)

/-- An activation is in a procedure that does the work of that of the other, and the other
is at a place in its code. -/
structure Shadows (program : Program) (live : Liveness) (a b : Activation) : Prop where
  hosts : program.Hosts live a.proc b.proc
  block : a.block ∈ a.proc.blocks
  suffix : a.rest <:+ a.block.statements

/-- An activation goes along with another one and agrees with it on what is needed. -/
structure Along (program : Program) (live : Liveness) (needed : LocalId → Prop)
    (a b : Activation) : Prop extends program.Shadows live a b where
  stands : b.block ∈ b.proc.blocks
  follows : Procedure.Follows program b.proc live a.block b.block a.rest b.rest
  agree : Agree a.proc.locals.length needed a.locals b.locals

/-- An activation waits for a call that may suspend, as the other one waits for it. -/
structure Parked (program : Program) (live : Liveness) (a b : Activation)
    (dst : Option LocalId) (target : ProcId) (state : StateId) (save : List LocalId)
    (next : BlockId) : Prop extends program.Shadows live a b where
  handler : b.block.handler = a.block.handler
  point : program.SuspendsAt live b.proc a.block a.rest dst target state save next
  agree : Agree a.proc.locals.length (live.Awaited a.block a.rest dst) a.locals b.locals

/-- What waits in the machine for the end of a call, in the place of a caller of the
interpretation. -/
inductive Awaits (program : Program) : ProcId → Caller → Waiter → Prop
  | plain {target : ProcId} {live : Liveness} {a b : Activation} {dst : Option LocalId}
      (quiet : ¬ program.MaySuspend target)
      (along : program.Along live (live.Awaited a.block a.rest dst) a b) :
    Awaits program target ⟨a, .plain target dst⟩ (.caller ⟨b, .plain target dst⟩)
  | parked {target : ProcId} {live : Liveness} {a b : Activation} {dst : Option LocalId}
      {state : StateId} {save : List LocalId} {next : BlockId}
      (parked : program.Parked live a b dst target state save next) :
    Awaits program target ⟨a, .plain target dst⟩ (.caller ⟨b, .resumable dst state save next⟩)
  | saved {target : ProcId} {live : Liveness} {a b : Activation} {dst : Option LocalId}
      {state : StateId} {save : List LocalId} {next : BlockId} {slots : List Value}
      (parked : program.Parked live a b dst target state save next)
      (saved : b.save save = .ok slots) :
    Awaits program target ⟨a, .plain target dst⟩ (.frame ⟨b.proc.id, state, slots⟩)

/-- What waits in the machine, in the place of the callers of the interpretation. -/
inductive Waits (program : Program) : ProcId → List Caller → List Waiter → Prop
  | nil {target : ProcId} : Waits program target [] []
  | cons {target : ProcId} {caller : Caller} {waiter : Waiter} {callers : List Caller}
      {waiting : List Waiter} (head : program.Awaits target caller waiter)
      (rest : Waits program caller.activation.proc.id callers waiting) :
    Waits program target (caller :: callers) (waiter :: waiting)

/-- A state of the interpretation and a state of the machine that does the same work.
The number bounds the steps of the machine until the interpretation takes one. -/
inductive Matches (program : Program) : Nat → Config → Config → Fiber → Prop
  | call {target : ProcId} {args : List Value} {callers callers' : List Caller}
      {outer outer' : Option (List Frame)} {f : Fiber}
      (waits : program.Waits target callers (waiters callers' outer')) (clean : f.frames = []) :
    Matches program (callers'.length + 1) ⟨.call target args, callers, outer⟩
      ⟨.call target args, callers', outer'⟩ f
  | run {live : Liveness} {a b : Activation} {callers callers' : List Caller}
      {outer outer' : Option (List Frame)} {f : Fiber}
      (along : program.Along live (· ∈ live.before a.block a.rest) a b)
      (waits : program.Waits a.proc.id callers (waiters callers' outer'))
      (clean : f.frames = []) :
    Matches program 0 ⟨.run a, callers, outer⟩ ⟨.run b, callers', outer'⟩ f
  /-- The machine goes to the block first that goes along. -/
  | jumping {live : Liveness} {a b : Activation} {id : BlockId} {d : Block}
      {callers callers' : List Caller} {outer outer' : Option (List Frame)} {f : Fiber}
      (shadows : program.Shadows live a b) (last : b.rest = [])
      (jump : ∀ c : Config, c.afterTerminator b b.block.terminator = c.goto b id)
      (found : b.proc.block? id = some d)
      (follows : Procedure.Follows program b.proc live a.block d a.rest d.statements)
      (agree : Agree a.proc.locals.length (· ∈ live.before a.block a.rest) a.locals b.locals)
      (waits : program.Waits a.proc.id callers (waiters callers' outer'))
      (clean : f.frames = []) :
    Matches program 1 ⟨.run a, callers, outer⟩ ⟨.run b, callers', outer'⟩ f
  | completed {completion : Completion} {target : ProcId} {callers callers' : List Caller}
      {outer outer' : Option (List Frame)} {f : Fiber}
      (waits : program.Waits target callers (waiters callers' outer')) (clean : f.frames = []) :
    Matches program 5 ⟨.deliver (.completed completion), callers, outer⟩
      ⟨.deliver (.completed completion), callers', outer'⟩ f
  -- a saved frame is entered
  | reenter {completion : Completion} {target : ProcId} {frame : Frame}
      {callers callers' : List Caller} {outer outer' : Option (List Frame)} {f : Fiber}
      (waits : program.Waits target callers (.frame frame :: waiters callers' outer'))
      (clean : f.frames = []) :
    Matches program 4 ⟨.deliver (.completed completion), callers, outer⟩
      ⟨.reenter frame completion, callers', outer'⟩ f
  | dispatching {completion : Completion} {live : Liveness} {a b : Activation} {c : Block}
      {target : ProcId} {dst : Option LocalId} {state : StateId} {save : List LocalId}
      {next : BlockId} {slots : List Value} {callers callers' : List Caller}
      {outer outer' : Option (List Frame)} {f : Fiber}
      (parked : program.Parked live a b dst target state save next)
      (saved : b.save save = .ok slots) (entry : b.proc.block? b.proc.entryBlock = some c)
      (waits : program.Waits a.proc.id callers (waiters callers' outer'))
      (clean : f.frames = []) :
    Matches program 3
      ⟨.deliver (.completed completion), ⟨a, .plain target dst⟩ :: callers, outer⟩
      ⟨.run ⟨b.proc, Activation.blank b.proc, some ⟨state, some slots, some completion⟩, c, []⟩,
        callers', outer'⟩ f
  | restoring {completion : Completion} {live : Liveness} {a b : Activation}
      {target : ProcId} {dst : Option LocalId} {state : StateId} {save : List LocalId}
      {next resume : BlockId} {slots : List Value} {callers callers' : List Caller}
      {outer outer' : Option (List Frame)} {f : Fiber}
      (parked : program.Parked live a b dst target state save next)
      (saved : b.save save = .ok slots)
      (waits : program.Waits a.proc.id callers (waiters callers' outer'))
      (clean : f.frames = []) :
    Matches program 2
      ⟨.deliver (.completed completion), ⟨a, .plain target dst⟩ :: callers, outer⟩
      ⟨.run ⟨b.proc, Activation.blank b.proc, some ⟨state, some slots, some completion⟩,
        a.block.resumption resume save dst next, [.restore save, .resume dst]⟩, callers', outer'⟩ f
  | resuming {completion : Completion} {live : Liveness} {a : Activation} {w : Procedure}
      {locals : List Value} {target : ProcId} {dst : Option LocalId} {state : StateId}
      {save : List LocalId} {next resume : BlockId} {callers callers' : List Caller}
      {outer outer' : Option (List Frame)} {f : Fiber}
      (parked : program.Parked live a ⟨w, locals, some ⟨state, none, some completion⟩,
        a.block.resumption resume save dst next, [.resume dst]⟩ dst target state save next)
      (waits : program.Waits a.proc.id callers (waiters callers' outer'))
      (clean : f.frames = []) :
    Matches program 1
      ⟨.deliver (.completed completion), ⟨a, .plain target dst⟩ :: callers, outer⟩
      ⟨.run ⟨w, locals, some ⟨state, none, some completion⟩,
        a.block.resumption resume save dst next, [.resume dst]⟩, callers', outer'⟩ f
  -- a primitive gives up the worker
  | suspended {which : Primitive} {target : ProcId} {args : List Value}
      {callers callers' : List Caller} {outer outer' : Option (List Frame)}
      {inner frames : List Frame} {f : Fiber} (named : Primitive.ofProc? target = some which)
      (leaves : Leaves args which inner f.reason) (held : f.frames = inner ++ frames)
      (waits : program.Waits target callers (frames.map .frame ++ waiters callers' outer')) :
    Matches program callers'.length ⟨.call target args, callers, outer⟩
      ⟨.deliver .suspended, callers', outer'⟩ f
  | resumed {target : ProcId} {callers : List Caller} {outer : Option (List Frame)}
      {frames : List Frame} {f : Fiber}
      (waits : program.Waits target callers (frames.map .frame)) (clean : f.frames = []) :
    Matches program 7 ⟨.deliver (.returned .unit), callers, outer⟩
      (.ofFrames (yieldFrame :: frames)) f
  | retrying {completion : Completion} {target : ProcId} {callers : List Caller}
      {outer : Option (List Frame)} {frames : List Frame} {f : Fiber}
      (waits : program.Waits target callers (frames.map .frame)) (clean : f.frames = []) :
    Matches program 6 ⟨.deliver (.returned .unit), callers, outer⟩
      ⟨.reenter yieldFrame completion, [], some frames⟩ f

/-- Whether the machine does the work of the interpretation, however far it lags
behind. -/
def Matched (program : Program) (c c' : Config) (f : Fiber) : Prop :=
  ∃ rank, program.Matches rank c c' f

/-- The end of a run that the result of the machine and the reason on its fiber stand
for. -/
inductive EndsAs : Except MachineFault Outcome → Option PauseReason → RunEnd → Prop
  | completed {completion : Completion} {reason : Option PauseReason} :
    EndsAs (.ok (.completed completion)) reason (.ofCompletion completion)
  | exited {result : TaskResult} :
    EndsAs (.ok .suspended) (some (.done result)) (.exited result)
  | faulted {fault : MachineFault} {reason : Option PauseReason} :
    EndsAs (.error fault) reason .faulted

/-- What a step of the machine is for the interpretation: none at all, a step of its own,
the end of the run, or, at the end of a drive, a yield. -/
inductive Advances (original program : Program) (i : Interpretation) (rank : Nat) {σ : Type}
    (m : σ) : Ending Progress × Scene σ → Prop
  | stutter {less : Nat} {c : Config} {f : Fiber} (lt : less < rank)
      (still : program.Matches less i.config c f) :
    Advances original program i rank m (.finished (.running c), ⟨i.commons, f, m⟩)
  | step {j : Interpretation} {c : Config} {f : Fiber} (stepped : i.step original = .running j)
      (matched : program.Matched j.config c f) :
    Advances original program i rank m (.finished (.running c), ⟨j.commons, f, m⟩)
  | ended {r : Except MachineFault Outcome} {e : RunEnd} {f : Fiber}
      (stepped : i.step original = .ended e i.commons) (halts : EndsAs r f.reason e) :
    Advances original program i rank m (.finished (.halted r), ⟨i.commons, f, m⟩)
  | yielded {j : Interpretation} {f : Fiber} (stepped : i.step original = .yielded j)
      (reason : f.reason = some .yielded) (held : f.frames ≠ [])
      (resumed : ∀ f' : Fiber, f'.frames = [] →
        program.Matches 7 j.config (.ofFrames f.frames) f') :
    Advances original program i rank m (.finished (.halted (.ok .suspended)), ⟨j.commons, f, m⟩)

end Program

end Resumable
