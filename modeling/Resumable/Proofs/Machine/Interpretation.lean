import Resumable.Machine.Body
import Resumable.Task.Pool

/-!
# Interpreting a program without suspensions

What the procedures of a program mean when nothing is ever suspended: a `yield` returns
unit at once, `exit` and `error_exit` end the run, and a primitive that has to wait
blocks it.  `Interpretation.Ends` is a run to its end, with the number of yields on the
way.

`Machine.Settles` is the counterpart for a machine that is driven on a fiber again and
again, with the number of suspensions.
-/

namespace Resumable

/-- How a run ends. -/
inductive RunEnd where
  | returned (v : Value)
  | raised (v : Value)
  /-- The task was ended from inside. -/
  | exited (result : TaskResult)
  | faulted
  deriving Inhabited

namespace RunEnd

def ofCompletion : Completion → RunEnd
  | .value v => .returned v
  | .exception v => .raised v

/-- The end that the result of a drive stands for. -/
def ofResult : TaskResult → RunEnd
  | .ok v => .returned v
  | .error (.raised v) => .raised v
  | .error _ => .faulted

/-- The number of suspensions that the end itself takes. -/
def suspensions : RunEnd → Nat
  | .exited _ => 1
  | _ => 0

end RunEnd

/-- A state of an interpretation. -/
structure Interpretation where
  config : Config
  commons : Commons

namespace Interpretation

/-- What a step of an interpretation leads to. -/
inductive Next where
  | running (i : Interpretation)
  | yielded (i : Interpretation)
  | ended (e : RunEnd) (commons : Commons)
  /-- A primitive has to wait. -/
  | blocked

/-- The start of a run. -/
def ofCall (entry : ProcId) (args : List Value) (commons : Commons) : Interpretation :=
  { config := .ofCall entry args, commons }

/-- Hands a value to the caller. -/
def returning (i : Interpretation) (v : Value) (commons : Commons) : Interpretation :=
  { config := i.config.delivering (.returned v), commons }

def ofExcept (commons : Commons) : Except MachineFault Config → Next
  | .ok config => .running { config, commons }
  | .error _ => .ended .faulted commons

/-- A call of a primitive. -/
def perform (i : Interpretation) (which : Primitive) (args : List Value) : Next :=
  match which with
  | .print => .running (i.returning .unit (i.commons.print (Primitive.firstOr args)))
  | .getNb =>
    match Primitive.mailboxArg? args with
    | none => .ended .faulted i.commons
    | some box =>
      let (message, commons) := i.commons.getNb box
      .running (i.returning (message.getD .unit) commons)
  | .putNb =>
    match args with
    | .mailbox box :: message :: _ =>
      let (accepted, commons) := i.commons.putNb box message
      .running (i.returning (.bool accepted) commons)
    | _ => .ended .faulted i.commons
  | .yield => .yielded (i.returning .unit i.commons)
  | .exit => .ended (.exited (.ok (Primitive.firstOr args))) i.commons
  | .errorExit => .ended (.exited (.error (.raised (Primitive.firstOr args)))) i.commons
  | .get => .blocked
  | .put => .blocked
  | .sleep => .blocked

/-- A step of an interpretation of a program. -/
def step (program : Program) (i : Interpretation) : Next :=
  let c := i.config
  match c.focus with
  | .call target args =>
    match Primitive.ofProc? target with
    | some which => i.perform which args
    | none => ofExcept i.commons (c.entered program target args)
  | .run a =>
    match a.rest with
    | s :: rest => ofExcept i.commons (c.afterStmt i.commons.valueText { a with rest } s)
    | [] => ofExcept i.commons (c.afterTerminator a a.block.terminator)
  | .deliver (.completed completion) =>
    match c.callers with
    | [] => .ended (.ofCompletion completion) i.commons
    | caller :: callers =>
      ofExcept i.commons ({ c with callers }.afterCall caller completion)
  | .deliver .suspended => .blocked
  | .reenter _ _ => .blocked

/-- A run to its end: how it ends, what tasks share then, and the number of yields. -/
inductive Ends (program : Program) : Interpretation → RunEnd → Commons → Nat → Prop
  | last {i : Interpretation} {e : RunEnd} {c : Commons} (h : i.step program = .ended e c) :
    Ends program i e c 0
  | next {i j : Interpretation} {e : RunEnd} {c : Commons} {n : Nat}
      (h : i.step program = .running j) (rest : Ends program j e c n) : Ends program i e c n
  | yield {i j : Interpretation} {e : RunEnd} {c : Commons} {n : Nat}
      (h : i.step program = .yielded j) (rest : Ends program j e c n) :
    Ends program i e c (n + 1)

/-- A run that comes to a primitive which has to wait. -/
inductive Blocks (program : Program) : Interpretation → Prop
  | here {i : Interpretation} (h : i.step program = .blocked) : Blocks program i
  | next {i j : Interpretation} (h : i.step program = .running j) (rest : Blocks program j) :
    Blocks program i
  | yield {i j : Interpretation} (h : i.step program = .yielded j) (rest : Blocks program j) :
    Blocks program i

variable {program : Program} {i : Interpretation} {e : RunEnd} {c : Commons} {n : Nat}

/-- A run that ends never has to wait. -/
theorem Ends.not_blocks (ends : Ends program i e c n) : ¬ Blocks program i := by
  induction ends with
  | last ended =>
    intro blocks
    cases blocks with
    | here step => exact nomatch ended.symm.trans step
    | next step _ => exact nomatch ended.symm.trans step
    | yield step _ => exact nomatch ended.symm.trans step
  | next running _ ih =>
    intro blocks
    cases blocks with
    | here step => exact nomatch running.symm.trans step
    | next step rest =>
      cases running.symm.trans step
      exact ih rest
    | yield step _ => exact nomatch running.symm.trans step
  | yield yielded _ ih =>
    intro blocks
    cases blocks with
    | here step => exact nomatch yielded.symm.trans step
    | next step _ => exact nomatch yielded.symm.trans step
    | yield step rest =>
      cases yielded.symm.trans step
      exact ih rest

/-- Runs to the end, for a number of steps at most. -/
def runFor (program : Program) : Nat → Interpretation → Option (RunEnd × Commons × Nat)
  | 0, _ => none
  | fuel + 1, i =>
    match i.step program with
    | .running j => runFor program fuel j
    | .yielded j => (runFor program fuel j).map fun (e, c, n) => (e, c, n + 1)
    | .ended e c => some (e, c, 0)
    | .blocked => none

theorem ends_of_runFor (fuel : Nat) (run : runFor program fuel i = some (e, c, n)) :
    Ends program i e c n := by
  induction fuel generalizing i n with
  | zero => cases run
  | succ fuel ih =>
    rw [runFor] at run
    cases step : i.step program with
    | running j =>
      rw [step] at run
      exact .next step (ih run)
    | yielded j =>
      rw [step] at run
      obtain ⟨⟨e', c', n'⟩, rest, same⟩ := Option.map_eq_some_iff.1 run
      cases same
      exact .yield step (ih rest)
    | ended e' c' =>
      rw [step] at run
      cases run
      exact .last step
    | blocked =>
      rw [step] at run
      cases run

end Interpretation

namespace Machine

/-- A machine that is driven until it is ready or has ended its task: how that ends, what
tasks share then, and the number of suspensions.  Nobody else changes what tasks share;
`driver n` is what the driver does to the fiber after the suspension with number `n`. -/
inductive Settles : (Nat → Fiber → Fiber) → Machine → Fiber → Commons → RunEnd → Commons →
    Nat → Prop
  | ready {driver : Nat → Fiber → Fiber} {m : Machine} {f : Fiber} {c : Commons} {fuel : Nat}
      {result : TaskResult} {s : Scene Machine}
      (run : (m.execute fuel).run ⟨c, f, m⟩ = (.finished (.ready result), s)) :
    Settles driver m f c (.ofResult result) s.commons 0
  | exited {driver : Nat → Fiber → Fiber} {m : Machine} {f : Fiber} {c : Commons} {fuel : Nat}
      {result : TaskResult} {s : Scene Machine}
      (run : (m.execute fuel).run ⟨c, f, m⟩ = (.finished .pending, s))
      (reason : s.fiber.reason = some (.done result)) :
    Settles driver m f c (.exited result) s.commons 1
  | again {driver : Nat → Fiber → Fiber} {m : Machine} {f : Fiber} {c c' : Commons}
      {fuel n : Nat} {e : RunEnd} {s : Scene Machine}
      (run : (m.execute fuel).run ⟨c, f, m⟩ = (.finished .pending, s))
      (reason : s.fiber.reason.any PauseReason.isDone = false)
      (rest : Settles (fun n => driver (n + 1)) s.body (driver 0 s.fiber) s.commons e c' n) :
    Settles driver m f c e c' (n + 1)

end Machine

end Resumable
