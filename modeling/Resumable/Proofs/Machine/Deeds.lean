import Resumable.Proofs.Machine.Attempts
import Resumable.Machine.Body
import Resumable.Proofs.Weave.Recovery

/-!
# What a machine does

The deeds of a machine are the statements that it executes and the primitives that it calls,
with everything that these ask of others and the answers that they get.  `Machine.Tells` lists
the deeds of one drive, step by step, and `Machine.Lives` those of all drives of a task so far.

Every run of a drive can be told (`Machine.exists_tells`), and what the deeds ask for is what
the run has asked of others (`Machine.Tells.told`).
-/

namespace Resumable

/-- Something that a machine does. -/
inductive Deed where
  /-- A statement of a procedure was executed. -/
  | executed (proc : ProcId) (s : Stmt)
  /-- A primitive was called, with the values of its arguments. -/
  | called (which : Primitive) (args : List Value)
  | asked (a : Ask)
  /-- The call of a primitive returned. -/
  | answered (which : Primitive) (completion : Completion)

/-- What a deed asked for. -/
def Deed.ask? : Deed → Option Ask
  | .asked a => some a
  | _ => none

/-- The statement that an activation executes next.  A call that ends a block counts as a
call; what woven code does to go on where it was does not count. -/
def Activation.statement? (a : Activation) : Option Stmt :=
  match a.rest with
  | s :: _ => if Procedure.isResumption s then none else some s
  | [] => a.block.terminator.call?

/-- How a run ends with a step, if it does. -/
def Ending.last? : Ending Progress → Option (Ending (Except MachineFault Outcome))
  | .finished (.running _) => none
  | .finished (.halted result) => some (.finished result)
  | .violated message => some (.violated message)
  | .diverged => some .diverged

namespace Config

variable {σ : Type}

/-! ## Steps -/

/-- The primitive that the next step runs. -/
def primitive? (c : Config) : Option Primitive :=
  match c.focus with
  | .call target _ => Primitive.ofProc? target
  | .reenter frame _ => Primitive.ofProc? frame.proc
  | _ => none

/-- What is executed by a step that runs no primitive. -/
def executes (c : Config) : List Deed :=
  match c.focus with
  | .run a => (a.statement?.map (.executed a.proc.id)).toList
  | _ => []

/-- What a step begins with: a primitive is called, unless this is another attempt. -/
def opening (c : Config) : List Deed :=
  match c.focus with
  | .call target args => ((Primitive.ofProc? target).map (.called · args)).toList
  | _ => []

/-- What a step ends with if it leads on. -/
def closing (c : Config) : Ending Progress → List Deed
  | .finished (.running next) =>
    match c.primitive?, next.focus with
    | some which, .deliver (.completed completion) => [.answered which completion]
    | some _, _ => []
    | none, _ => c.executes
  | _ => []

/-- The deeds of a step. -/
def deeds (c : Config) (log : List Ask) (p : Ending Progress) : List Deed :=
  c.opening ++ ((Ask.outward log).map .asked ++ c.closing p)

/-- A step that runs no primitive and asks nothing of others. -/
theorem deeds_of_quiet {c : Config} {log : List Ask} (other : c.primitive? = none)
    (own : Ask.outward log = []) (p : Ending Progress) : c.deeds log p = c.closing p := by
  have quiet : c.opening = [] := by
    obtain ⟨focus, callers, outer⟩ := c
    cases focus with
    | call target args =>
      have other : Primitive.ofProc? target = none := other
      simp only [opening, other, Option.map_none, Option.toList_none]
    | _ => rfl
  rw [deeds, quiet, own, List.map_nil, List.nil_append, List.nil_append]

theorem closing_running {c next : Config} (other : c.primitive? = none) :
    c.closing (.finished (.running next)) = c.executes := by
  simp only [closing, other]

/-- The deeds of a run with the requests that were answered.  The run may end at any time
because its bound on steps is used up. -/
inductive Tells (program : Program) : Config → Fiber → σ → List Ask → List Deed →
    Ending (Except MachineFault Outcome) → Fiber → σ → Prop
  | stop {c : Config} {f : Fiber} {s : σ} : Tells program c f s [] [] .diverged f s
  | step {c next : Config} {f f' f'' : Fiber} {s s' s'' : σ} {log more : List Ask}
      {es : List Deed} {e : Ending (Except MachineFault Outcome)}
      (step : Drive.Logs (c.step program) f s log (.finished (.running next)) f' s')
      (rest : Tells program next f' s' more es e f'' s'') :
    Tells program c f s (log ++ more) (c.deeds log (.finished (.running next)) ++ es) e f'' s''
  | last {c : Config} {f f' : Fiber} {s s' : σ} {log : List Ask} {p : Ending Progress}
      {e : Ending (Except MachineFault Outcome)}
      (step : Drive.Logs (c.step program) f s log p f' s') (ends : p.last? = some e) :
    Tells program c f s log (c.deeds log p) e f' s'

/-! ## What deeds ask for -/

theorem asks_opening (c : Config) : c.opening.filterMap Deed.ask? = [] := by
  unfold opening
  split
  · cases Primitive.ofProc? _ <;> rfl
  · rfl

theorem asks_closing (c : Config) (p : Ending Progress) :
    (c.closing p).filterMap Deed.ask? = [] := by
  unfold closing
  split
  · split
    · rfl
    · rfl
    · unfold executes
      split
      · cases Activation.statement? _ <;> rfl
      · rfl
  · rfl

theorem asks_asked (asks : List Ask) : (asks.map Deed.asked).filterMap Deed.ask? = asks := by
  rw [List.filterMap_map]
  exact List.filterMap_some

theorem asks_deeds (c : Config) (log : List Ask) (p : Ending Progress) :
    (c.deeds log p).filterMap Deed.ask? = Ask.outward log := by
  unfold deeds
  rw [List.filterMap_append, List.filterMap_append, asks_opening, asks_asked, asks_closing,
    List.append_nil, List.nil_append]

theorem Tells.told {program : Program} {c : Config} {f f' : Fiber} {s s' : σ} {log : List Ask}
    {es : List Deed} {e : Ending (Except MachineFault Outcome)}
    (tells : c.Tells program f s log es e f' s') : es.filterMap Deed.ask? = Ask.outward log := by
  induction tells with
  | stop => rfl
  | step step rest ih => rw [List.filterMap_append, asks_deeds, ih, Ask.outward_append]
  | last step ends => exact asks_deeds _ _ _

/-- Every run can be told, by induction on the bound on its steps. -/
theorem exists_tells (program : Program) {fuel : Nat} {c : Config} {f f' : Fiber} {s s' : σ}
    {log : List Ask} {e : Ending (Except MachineFault Outcome)}
    (run : Drive.Logs (c.run program fuel) f s log e f' s') :
    ∃ es, c.Tells program f s log es e f' s' := by
  induction fuel generalizing c f s log with
  | zero =>
    cases run
    exact ⟨[], .stop⟩
  | succ fuel ih =>
    rw [run_succ] at run
    rcases run.bind_cases with ⟨p, f₁, s₁, first, second, rfl, step, rest⟩ |
      ⟨message, rfl, step⟩ | ⟨rfl, step⟩
    · cases p with
      | running next =>
        obtain ⟨es, tells⟩ := ih rest
        exact ⟨_, .step step tells⟩
      | halted result =>
        cases rest
        rw [List.append_nil]
        exact ⟨_, .last step rfl⟩
    · exact ⟨_, .last step rfl⟩
    · exact ⟨_, .last step rfl⟩

end Config

namespace Machine

/-! ## Drives -/

/-- The deeds of one drive with the requests that were answered.  The first requests are about
the frames of the fiber. -/
inductive Tells : Machine → Fiber → List Ask → List Deed →
    Ending (Except MachineFault Outcome) → Fiber → Machine → Prop
  | call {program : Program} {entry : ProcId} {args : List Value} {f f' : Fiber} {a : Ask}
      {log : List Ask} {es : List Deed} {e : Ending (Except MachineFault Outcome)} {m' : Machine}
      (clean : f.frames = []) (asks : a.Is .isSuspended f.isSuspended)
      (run : (Config.ofCall entry args).Tells program f (⟨program, entry, none⟩ : Machine) log
        es e f' m') :
    Tells ⟨program, entry, some args⟩ f (a :: log) es e f' m'
  | resume {m m' : Machine} {f f' : Fiber} {a b : Ask} {log : List Ask} {es : List Deed}
      {e : Ending (Except MachineFault Outcome)} (saved : f.frames ≠ [])
      (asks : a.Is .isSuspended f.isSuspended) (rewinds : b.Is .rewind f.frames)
      (run : (Config.ofFrames f.frames).Tells m.program f.rewind.2 m log es e f' m') :
    Tells m f (a :: b :: log) es e f' m'
  | refuse {program : Program} {entry : ProcId} {f : Fiber} {a : Ask} (clean : f.frames = [])
      (asks : a.Is .isSuspended f.isSuspended) :
    Tells ⟨program, entry, none⟩ f [a] [] (.finished (.error (.drivenAgain entry))) f
      ⟨program, entry, none⟩

theorem Tells.told {m m' : Machine} {f f' : Fiber} {log : List Ask} {es : List Deed}
    {e : Ending (Except MachineFault Outcome)} (tells : m.Tells f log es e f' m') :
    es.filterMap Deed.ask? = Ask.outward log := by
  cases tells with
  | call clean asks run => rw [run.told, asks.outward_own rfl]
  | resume saved asks rewinds run => rw [run.told, asks.outward_own rfl, rewinds.outward_own rfl]
  | refuse clean asks => rw [asks.outward_own rfl, Ask.outward_nil, List.filterMap_nil]

/-- Every drive can be told. -/
theorem exists_tells {m m' : Machine} {f f' : Fiber} {fuel : Nat} {log : List Ask}
    {e : Ending (Except MachineFault Outcome)}
    (run : Drive.Logs (m.advance fuel) f m log e f' m') : ∃ es, m.Tells f log es e f' m' := by
  obtain ⟨program, entry, args⟩ := m
  unfold advance at run
  cases run with
  | refused answer => cases answer
  | answered answer rest =>
    cases answer
    change Drive.Logs (Drive.bind (.done f.isSuspended) _) f _ _ e f' m' at rest
    by_cases clean : f.frames = []
    · rw [show f.isSuspended = false by simp [Fiber.isSuspended, clean]] at rest
      cases args with
      | none =>
        cases rest
        exact ⟨[], .refuse clean rfl⟩
      | some args =>
        cases rest with
        | commit rest =>
          obtain ⟨es, tells⟩ := Config.exists_tells program rest
          exact ⟨es, .call clean rfl tells⟩
    · rw [show f.isSuspended = true by simp [Fiber.isSuspended, clean]] at rest
      cases rest with
      | refused answer => cases answer
      | answered answer rest =>
        cases answer
        obtain ⟨es, tells⟩ := Config.exists_tells program rest
        exact ⟨es, .resume clean rfl rfl tells⟩

/-- What the machine of a task has done in its drives so far, each of which has left the task
waiting, with the requests that were answered.  Between two drives anything may happen to what
tasks share and to the fiber, its saved frames apart. -/
inductive Lives (program : Program) (entry : ProcId) (args : List Value) :
    List Ask → List Deed → Machine → Fiber → Prop
  | born {f : Fiber} (clean : f.frames = []) :
    Lives program entry args [] [] (ofEntry program entry args) f
  | driven {asks log : List Ask} {es more : List Deed} {m m' : Machine} {f f₀ f' : Fiber}
      (before : Lives program entry args asks es m f) (kept : f₀.frames = f.frames)
      (drive : m.Tells f₀ log more (.finished (.ok .suspended)) f' m')
      (waits : f'.reason.any PauseReason.isDone = false) :
    Lives program entry args (asks ++ log) (es ++ more) m' f'

end Machine

end Resumable
