import Resumable.Proofs.Machine.Faults
import Resumable.Proofs.Weave.Correspondence
import Resumable.Proofs.Task.Drive

/-!
# Where the machine can be

In a program whose procedures are counterparts of original ones, an activation is always
at a known place: in code that follows an original block, at the dispatcher, or in a
resume block (`Program.At`).  A caller that waits for a call which may suspend stands at
a suspending call, and so does every saved frame (`Program.Stack`, `Program.Links`).

`Program.Sane` is what holds of the whole machine between two steps.
-/

namespace Resumable

namespace Program

/-- A procedure that does the work of an original one and is found under its identity. -/
structure Hosts (program : Program) (live : Liveness) (p w : Procedure) : Prop where
  work : program.Counterpart live p w
  found : program.procedure? w.id = some w
  notPrimitive : Primitive.ofProc? w.id = none

/-- Every procedure with a body does the work of an original one. -/
def Faithful (program : Program) : Prop :=
  ∀ id w, program.procedure? id = some w → w.hasBody = true →
    ∃ live p, program.Counterpart live p w

/-- Where an activation is: the block, the statements that are left, and what is left of
a resumption. -/
inductive At (program : Program) (live : Liveness) (p w : Procedure) :
    Block → List Stmt → Option Resumption → Prop
  | code {b c : Block} {rest rest' : List Stmt} {r : Option Resumption} (block : b ∈ p.blocks)
      (suffix : rest <:+ b.statements) (stands : c ∈ w.blocks)
      (follows : Procedure.Follows program w live b c rest rest') :
    At program live p w c rest' r
  /-- At the dispatcher of a fresh call. -/
  | fresh {states : List ResumptionState} :
    At program live p w (dispatcher w.entryBlock p.entryBlock states) [] none
  /-- At the dispatcher of a resumed call. -/
  | dispatching {b c : Block} {more : List Stmt} {dst : Option LocalId} {target : ProcId}
      {state : StateId} {save : List LocalId} {next : BlockId} {slots : List Value}
      {completion : Completion} (block : b ∈ p.blocks) (suffix : more <:+ b.statements)
      (point : program.SuspendsAt live w b more dst target state save next)
      (length : slots.length = save.length) (entry : w.block? w.entryBlock = some c) :
    At program live p w c [] (some ⟨state, some slots, some completion⟩)
  | restoring {b : Block} {more : List Stmt} {dst : Option LocalId} {target : ProcId}
      {state : StateId} {save : List LocalId} {next resume : BlockId} {slots : List Value}
      {completion : Completion} (block : b ∈ p.blocks) (suffix : more <:+ b.statements)
      (point : program.SuspendsAt live w b more dst target state save next)
      (length : slots.length = save.length) :
    At program live p w (b.resumption resume save dst next) [.restore save, .resume dst]
      (some ⟨state, some slots, some completion⟩)
  | resuming {b : Block} {more : List Stmt} {dst : Option LocalId} {target : ProcId}
      {state : StateId} {save : List LocalId} {next resume : BlockId}
      {completion : Completion} (block : b ∈ p.blocks) (suffix : more <:+ b.statements)
      (point : program.SuspendsAt live w b more dst target state save next) :
    At program live p w (b.resumption resume save dst next) [.resume dst]
      (some ⟨state, none, some completion⟩)
  | returning {b : Block} {more : List Stmt} {dst : Option LocalId} {target : ProcId}
      {state : StateId} {save : List LocalId} {next resume : BlockId} {r : Option Resumption}
      (block : b ∈ p.blocks) (suffix : more <:+ b.statements)
      (point : program.SuspendsAt live w b more dst target state save next) :
    At program live p w (b.resumption resume save dst next) [] r

/-- An activation of a procedure of the program at a known place. -/
structure Sited (program : Program) (live : Liveness) (p : Procedure) (a : Activation) :
    Prop where
  hosts : program.Hosts live p a.proc
  length : a.locals.length = a.proc.locals.length
  place : program.At live p a.proc a.block a.rest a.resumption

/-- The callers that wait for the end of a call, up to the outermost call. -/
inductive Stack (program : Program) : ProcId → List Caller → ProcId → Prop
  | nil {target : ProcId} : Stack program target [] target
  | plain {target bottom : ProcId} {a : Activation} {dst : Option LocalId} {live : Liveness}
      {p : Procedure} {callers : List Caller} (quiet : ¬ program.MaySuspend target)
      (sited : program.Sited live p a) (rest : Stack program a.proc.id callers bottom) :
    Stack program target (⟨a, .plain target dst⟩ :: callers) bottom
  | resumable {target bottom : ProcId} {a : Activation} {dst : Option LocalId} {live : Liveness}
      {p : Procedure} {b : Block} {more : List Stmt} {state : StateId} {save : List LocalId}
      {next : BlockId} {callers : List Caller} (hosts : program.Hosts live p a.proc)
      (length : a.locals.length = a.proc.locals.length) (block : b ∈ p.blocks)
      (suffix : more <:+ b.statements) (handler : a.block.handler = b.handler)
      (point : program.SuspendsAt live a.proc b more dst target state save next)
      (rest : Stack program a.proc.id callers bottom) :
    Stack program target (⟨a, .resumable dst state save next⟩ :: callers) bottom

/-- The saved frames that wait for the end of a call, up to the outermost call. -/
inductive Links (program : Program) : ProcId → List Frame → ProcId → Prop
  | nil {target : ProcId} : Links program target [] target
  | cons {target bottom : ProcId} {frame : Frame} {frames : List Frame} {live : Liveness}
      {p w : Procedure} {b : Block} {more : List Stmt} {dst : Option LocalId}
      {save : List LocalId} {next : BlockId} (id : w.id = frame.proc)
      (hosts : program.Hosts live p w) (block : b ∈ p.blocks) (suffix : more <:+ b.statements)
      (point : program.SuspendsAt live w b more dst target frame.state save next)
      (length : frame.slots.length = save.length) (rest : Links program frame.proc frames bottom) :
    Links program target (frame :: frames) bottom

/-- The frames that a fiber holds between two drives: those of the callers, with one of
the primitive in front that is to be tried again. -/
inductive Saved (program : Program) (entry : ProcId) : List Frame → Prop
  | retry {which : Primitive} {target : ProcId} {slots : List Value} {frames : List Frame}
      (named : Primitive.ofProc? target = some which) (suspends : which.suspends = true)
      (links : program.Links target frames entry) :
    Saved program entry (⟨which.procId, Primitive.retryState, slots⟩ :: frames)
  | linked {target : ProcId} {frames : List Frame} (links : program.Links target frames entry) :
    Saved program entry frames

/-- What a fiber holds while the callers of a primitive save their frames: the primitive
is to be tried again, or the task ends. -/
structure Saving (program : Program) (target : ProcId) (f : Fiber) : Prop where
  frames : ∃ which inner frames, Primitive.ofProc? inner = some which ∧
    which.suspends = true ∧ program.Links inner frames target ∧
      ((∃ slots, f.frames = ⟨which.procId, Primitive.retryState, slots⟩ :: frames) ∨
        f.frames = frames ∧ f.reason.any PauseReason.isDone = true)

/-- What waits for the end of a call: callers, then frames that are still to be
entered. -/
def Context (program : Program) (entry target : ProcId) (callers : List Caller)
    (outer : Option (List Frame)) : Prop :=
  ∃ bottom, program.Stack target callers bottom ∧ program.Links bottom (outer.getD []) entry

/-- What holds of the machine and its fiber between two steps. -/
inductive Sane (program : Program) (entry : ProcId) : Config → Fiber → Prop
  | call {target : ProcId} {args : List Value} {callers : List Caller}
      {outer : Option (List Frame)} {f : Fiber}
      (context : program.Context entry target callers outer) (clean : f.frames = []) :
    Sane program entry ⟨.call target args, callers, outer⟩ f
  | reenter {frame : Frame} {frames : List Frame} {completion : Completion} {f : Fiber}
      (saved : program.Saved entry (frame :: frames)) (clean : f.frames = []) :
    Sane program entry ⟨.reenter frame completion, [], some frames⟩ f
  | run {a : Activation} {live : Liveness} {p : Procedure} {callers : List Caller}
      {outer : Option (List Frame)} {f : Fiber} (sited : program.Sited live p a)
      (context : program.Context entry a.proc.id callers outer) (clean : f.frames = []) :
    Sane program entry ⟨.run a, callers, outer⟩ f
  | completed {completion : Completion} {target : ProcId} {callers : List Caller}
      {outer : Option (List Frame)} {f : Fiber}
      (context : program.Context entry target callers outer) (clean : f.frames = []) :
    Sane program entry ⟨.deliver (.completed completion), callers, outer⟩ f
  /-- At the start of a resumed run. -/
  | resumed {completion : Completion} {frames : List Frame} {f : Fiber}
      (saved : program.Saved entry frames) (clean : f.frames = []) :
    Sane program entry ⟨.deliver (.completed completion), [], some frames⟩ f
  | suspended {target : ProcId} {callers : List Caller} {outer : Option (List Frame)} {f : Fiber}
      (context : program.Context entry target callers outer) (may : program.MaySuspend target)
      (saving : program.Saving target f) :
    Sane program entry ⟨.deliver .suspended, callers, outer⟩ f

/-- What holds at the end of a run. -/
def Halted (program : Program) (entry : ProcId) :
    Except MachineFault Outcome → Fiber → Prop
  | .ok .suspended, f => program.Saving entry f
  | .ok (.completed _), f => f.frames = []
  | .error fault, f => f.frames = [] ∧ fault.isResumption = false

variable {program : Program}

theorem Links.append {target middle bottom : ProcId} {frames frames' : List Frame}
    (h : program.Links target frames middle) (h' : program.Links middle frames' bottom) :
    program.Links target (frames ++ frames') bottom := by
  induction h with
  | nil => exact h'
  | cons id hosts block suffix point length _ ih =>
    exact .cons id hosts block suffix point length (ih h')

/-- A caller that may be suspended is in resumable form. -/
theorem SuspendsAt.maySuspend {live : Liveness} {p w : Procedure} {b : Block} {more : List Stmt}
    {dst : Option LocalId} {target : ProcId} {state : StateId} {save : List LocalId}
    {next : BlockId} (point : program.SuspendsAt live w b more dst target state save next)
    (hosts : program.Hosts live p w) : program.MaySuspend w.id :=
  .woven hosts.notPrimitive hosts.found point.resumes.woven

/-- Handlers are in the original code. -/
theorem At.handler {live : Liveness} {p w : Procedure} {c : Block} {rest : List Stmt}
    {r : Option Resumption} (place : program.At live p w c rest r) (sound : p.Sound) :
    ∀ h ∈ c.handler, h.target.index < p.blocks.length := by
  intro h mem
  cases place with
  | code block _ _ follows =>
    rw [follows.handler_eq] at mem
    exact ((sound.blocks _ block).handler h mem).1
  | fresh => cases mem
  | dispatching _ _ point _ entry =>
    obtain ⟨old, states, resume, here, -⟩ := point.resumes.taken
    rw [entry, Option.some.injEq] at here
    rw [here] at mem
    cases mem
  | restoring block _ _ _ => exact ((sound.blocks _ block).handler h mem).1
  | resuming block _ _ => exact ((sound.blocks _ block).handler h mem).1
  | returning block _ _ => exact ((sound.blocks _ block).handler h mem).1

end Program

end Resumable
