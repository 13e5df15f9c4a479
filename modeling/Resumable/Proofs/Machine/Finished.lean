import Resumable.Proofs.Machine.Resumption

/-!
# A machine that has finished

What is left on the fiber when a machine ends decides what the next drive does: it enters
saved frames again if there are any, and refuses otherwise.

* A machine at work has no saved frames (`Config.Tidy`), whatever its program is, and so a
  drive that ends with a value or an exception leaves none (`Config.ensures_run`).
* A fault leaves none either, unless it comes while a call is being left: the caller cannot
  suspend there, or a local that it has to save does not exist
  (`MachineFault.cutsUnwinding`).  The frames further in were saved by then.
* Without frames every later drive is refused (`Machine.Drives.refused`).

The exception is real: a procedure that was not woven and calls a primitive that waits
ends with a fault, and can be driven on (`Machine.driven_past_fault`).
-/

namespace Resumable

/-- The fault can come up while a suspended call is left, when frames are saved already. -/
def MachineFault.cutsUnwinding : MachineFault → Bool
  | .notSuspensionPoint .. => true
  | .noLocal .. => true
  | _ => false

/-- Locals that cannot be saved do not exist. -/
theorem Activation.cutsUnwinding_of_save {a : Activation} {save : List LocalId}
    {fault : MachineFault} (fails : a.save save = .error fault) :
    fault.cutsUnwinding = true := by
  induction save with
  | nil => cases fails
  | cons l more ih =>
    rw [Activation.save] at fails
    cases value : a.read l with
    | error missing =>
      rw [value] at fails
      cases fails
      unfold Activation.read at value
      split at value
      · cases value
      · cases value
        rfl
    | ok v =>
      cases others : a.save more with
      | error missing =>
        rw [value, others] at fails
        cases fails
        exact ih others
      | ok slots =>
        rw [value, others] at fails
        cases fails

namespace Config

/-! ## One drive -/

/-- There are no saved frames, unless a call is being left. -/
def Tidy (c : Config) (f : Fiber) : Prop := c.focus ≠ .deliver .suspended → f.frames = []

/-- The frames that a run leaves. -/
def Leaves : Except MachineFault Outcome → Fiber → Prop
  | .ok (.completed _), f => f.frames = []
  | .ok .suspended, _ => True
  | .error fault, f => f.frames = [] ∨ fault.cutsUnwinding = true

/-- What holds after a step. -/
def Tidied : Progress → Fiber → Prop
  | .running c, f => c.Tidy f
  | .halted r, f => Leaves r f

variable {c : Config} {f : Fiber} {σ : Type}

theorem tidied_ofExcept (clean : f.frames = []) (r : Except MachineFault Config) :
    Tidied (.ofExcept r) f := by
  cases r with
  | error fault => exact Or.inl clean
  | ok c => exact fun _ => clean

theorem ensures_perform (which : Primitive) (args : List Value) (again : Bool)
    (clean : f.frames = []) :
    Drive.Ensures (σ := σ) (c.perform which args again) f Tidied := by
  refine .bind ((Program.perform_ensures which args again clean).mono fun r f' performed => ?_)
  apply Drive.Ensures.done
  rcases r with fault | completion | -
  · exact Or.inl performed.1
  · exact fun _ => performed
  · exact fun active => absurd rfl active

/-- A caller that is left saves a frame, or the run ends with the frames there are. -/
theorem ensures_suspendCaller (caller : Caller) :
    Drive.Ensures (σ := σ) (c.suspendCaller caller) f Tidied := by
  cases awaiting : caller.awaiting with
  | plain callee dst =>
    simp only [suspendCaller, awaiting]
    exact .done (Or.inr rfl)
  | resumable dst state save next =>
    cases saved : caller.activation.save save with
    | error fault =>
      simp only [suspendCaller, awaiting, saved]
      exact .done (Or.inr (Activation.cutsUnwinding_of_save saved))
    | ok slots =>
      simp only [suspendCaller, awaiting, saved]
      refine .bind (.request ?_ ?_)
      · intro _ _ _ f' _
        exact .done fun active => absurd rfl active
      · intro _ _ _ _ answer
        cases answer

theorem ensures_finish_suspended : Drive.Ensures (σ := σ) (c.finish .suspended) f Tidied := by
  cases outer : c.outer with
  | none =>
    simp only [finish, outer]
    exact .done trivial
  | some frames =>
    simp only [finish, outer]
    refine .bind (.request ?_ ?_)
    · intro _ _ _ _ _
      exact .done trivial
    · intro _ _ _ _ answer
      cases answer

theorem ensures_finish_completed (completion : Completion) (clean : f.frames = []) :
    Drive.Ensures (σ := σ) (c.finish (.completed completion)) f Tidied := by
  cases outer : c.outer with
  | none =>
    simp only [finish, outer]
    exact .done clean
  | some frames =>
    cases frames with
    | nil =>
      simp only [finish, outer]
      exact .bind (.keeping rfl clean fun _ _ clean => .done clean)
    | cons frame frames =>
      simp only [finish, outer]
      exact .done fun _ => clean

theorem Tidy.step (tidy : c.Tidy f) (program : Program) :
    Drive.Ensures (σ := σ) (c.step program) f Tidied := by
  obtain ⟨focus, callers, outer⟩ := c
  cases focus with
  | call target args =>
    simp only [Config.step]
    split
    · exact ensures_perform _ args false (tidy (by simp))
    · exact .done (tidied_ofExcept (tidy (by simp)) _)
  | reenter frame completion =>
    simp only [Config.step]
    split
    · exact ensures_perform _ frame.slots true (tidy (by simp))
    · exact .done (tidied_ofExcept (tidy (by simp)) _)
  | run a =>
    simp only [Config.step]
    split
    · exact .bind (.keeping rfl (tidy (by simp)) fun _ _ clean => .done (tidied_ofExcept clean _))
    · exact .done (tidied_ofExcept (tidy (by simp)) _)
  | deliver outcome =>
    cases outcome with
    | completed completion =>
      cases callers with
      | nil => exact ensures_finish_completed completion (tidy (by simp))
      | cons caller callers => exact .done (tidied_ofExcept (tidy (by simp)) _)
    | suspended =>
      cases callers with
      | nil => exact ensures_finish_suspended
      | cons caller callers => exact ensures_suspendCaller caller

/-- What a run leaves, by induction on the bound on its steps. -/
theorem Tidy.run (tidy : c.Tidy f) (program : Program) (fuel : Nat) :
    Drive.Ensures (σ := σ) (Config.run program fuel c) f Leaves := by
  induction fuel generalizing c f with
  | zero => exact .diverge
  | succ fuel ih =>
    rw [Config.run_succ]
    refine .bind ((tidy.step program).mono fun progress f' tidied => ?_)
    cases progress with
    | running c => exact ih tidied
    | halted r => exact .done tidied

end Config

/-! ## One drive after another -/

namespace Machine

/-- Drives of a machine on one fiber, with how they end.  Between two of them anything may
happen to what tasks share and to the fiber, its saved frames apart. -/
inductive Drives : Machine → Fiber → List (Ending DriveEnd) → Machine → Fiber → Prop
  | nil {m : Machine} {f : Fiber} : Drives m f [] m f
  | cons {m m' m'' : Machine} {f f₀ f' f'' : Fiber} {fuel : Nat} {e : Ending DriveEnd}
      {es : List (Ending DriveEnd)} (kept : f₀.frames = f.frames)
      (run : Drive.Runs (m.execute fuel) f₀ m e f' m') (rest : Drives m' f' es m'' f'') :
    Drives m f (e :: es) m'' f''

variable {m m' m₁ : Machine} {f f' f₁ : Fiber} {fuel : Nat} {es : List (Ending DriveEnd)}
  {result : TaskResult}

/-- A drive uses the arguments up and leaves the frames that its end leaves, whether it
calls the entry, enters saved frames or is refused. -/
theorem advance_leaves {e : Ending (Except MachineFault Outcome)}
    (ready : f.frames = [] ∨ m.args = none)
    (run : Drive.Runs (m.advance fuel) f m e f' m') :
    m'.entry = m.entry ∧ m'.args = none ∧ Drive.Meets Config.Leaves e f' := by
  obtain ⟨program, entry, args⟩ := m
  unfold advance at run
  cases run with
  | refused answer => cases answer
  | answered answer rest =>
    cases answer
    change Drive.Runs (Drive.bind (.done f.isSuspended) _) f _ e f' m' at rest
    cases frames : f.frames with
    | cons frame more =>
      obtain rfl : args = none := ready.resolve_left (by simp [frames])
      have suspended : f.isSuspended = true := by simp [Fiber.isSuspended, frames]
      rw [suspended] at rest
      cases rest with
      | refused answer => cases answer
      | answered answer rest =>
        cases answer
        have tidy : (Config.ofFrames f.frames).Tidy f.rewind.2 := fun _ => rfl
        obtain ⟨rfl, leaves⟩ := tidy.run program fuel _ _ _ _ rest
        exact ⟨rfl, rfl, leaves⟩
    | nil =>
      have fresh : f.isSuspended = false := by simp [Fiber.isSuspended, frames]
      rw [fresh] at rest
      cases args with
      | none =>
        cases rest
        exact ⟨rfl, rfl, Or.inl frames⟩
      | some args =>
        cases rest with
        | commit rest =>
          have tidy : (Config.ofCall entry args).Tidy f := fun _ => frames
          obtain ⟨rfl, leaves⟩ := tidy.run program fuel _ _ _ _ rest
          exact ⟨rfl, rfl, leaves⟩

/-- The same of a drive as its driver sees it. -/
theorem execute_leaves {e : Ending DriveEnd} (ready : f.frames = [] ∨ m.args = none)
    (run : Drive.Runs (m.execute fuel) f m e f' m') :
    m'.entry = m.entry ∧ m'.args = none ∧
      ∀ result, e = .finished (.ready result) → f'.frames = [] ∨
        ∃ fault : MachineFault, fault.cutsUnwinding = true ∧
          result = .error (.fault fault.message) := by
  rcases Drive.Runs.bind_cases run with
    ⟨r, f₁, m₁, first, last⟩ | ⟨message, rfl, first⟩ | ⟨rfl, first⟩
  · obtain ⟨entry, args, leaves⟩ := advance_leaves ready first
    cases last
    refine ⟨entry, args, fun result ends => ?_⟩
    match r with
    | .ok (.completed _) => exact Or.inl leaves
    | .ok .suspended => cases ends
    | .error fault =>
      cases ends
      exact Or.imp_right (fun cuts => ⟨fault, cuts, rfl⟩) leaves
  · obtain ⟨entry, args, -⟩ := advance_leaves ready first
    exact ⟨entry, args, nofun⟩
  · obtain ⟨entry, args, -⟩ := advance_leaves ready first
    exact ⟨entry, args, nofun⟩

theorem Drives.uses (drives : Drives m f es m' f') (ready : f.frames = [] ∨ m.args = none) :
    m'.entry = m.entry ∧ (f'.frames = [] ∨ m'.args = none) := by
  induction drives with
  | nil => exact ⟨rfl, ready⟩
  | cons kept run rest ih =>
    rw [← kept] at ready
    obtain ⟨entry, args, -⟩ := execute_leaves ready run
    obtain ⟨same, after⟩ := ih (Or.inr args)
    exact ⟨same.trans entry, after⟩

/-- A machine without arguments on a fiber without frames refuses to be driven. -/
theorem execute_refuses {e : Ending DriveEnd} (used : m.args = none) (clean : f.frames = [])
    (run : Drive.Runs (m.execute fuel) f m e f' m') :
    e = .finished (.ready (.error (.fault (MachineFault.drivenAgain m.entry).message))) ∧
      m' = m ∧ f' = f := by
  have fresh : f.isSuspended = false := by simp [Fiber.isSuspended, clean]
  unfold execute advance at run
  cases run with
  | refused answer => cases answer
  | answered answer rest =>
    cases answer
    change Drive.Runs (Drive.bind (Drive.bind (.done f.isSuspended) _) _) f _ e f' m' at rest
    rw [fresh] at rest
    simp only [used] at rest
    cases rest
    exact ⟨rfl, rfl, rfl⟩

theorem Drives.refused (drives : Drives m f es m' f') (used : m.args = none)
    (clean : f.frames = []) :
    (∀ e ∈ es, e = .finished (.ready (.error (.fault
      (MachineFault.drivenAgain m.entry).message)))) ∧ f'.frames = [] := by
  induction drives with
  | nil => exact ⟨fun _ mem => absurd mem List.not_mem_nil, clean⟩
  | cons kept run rest ih =>
    rw [← kept] at clean
    obtain ⟨refusal, rfl, rfl⟩ := execute_refuses used clean run
    obtain ⟨others, after⟩ := ih used clean
    exact ⟨List.forall_mem_cons.2 ⟨refusal, others⟩, after⟩

/-- A machine that has finished has no frames left, except after a fault that cut the leaving
of a call short; and if it has none left it refuses every later drive. -/
theorem Drives.stays_finished {program : Program} {entry : ProcId} {args : List Value}
    (start : f.frames = []) (before : Drives (ofEntry program entry args) f es m f₁)
    (last : Drives m f₁ [.finished (.ready result)] m₁ f') :
    (f'.frames = [] ∨ ∃ fault : MachineFault, fault.cutsUnwinding = true ∧
      result = .error (.fault fault.message)) ∧
    (f'.frames = [] → ∀ later m' f'', Drives m₁ f' later m' f'' →
      (∀ e ∈ later, e = .finished (.ready (.error (.fault
        (MachineFault.drivenAgain entry).message)))) ∧ f''.frames = []) := by
  obtain ⟨origin, ready⟩ := before.uses (Or.inl start)
  cases last with
  | cons kept run rest =>
    cases rest
    rw [← kept] at ready
    obtain ⟨same, used, frames⟩ := execute_leaves ready run
    refine ⟨frames result rfl, fun clean later m' f'' drives => ?_⟩
    have refused := drives.refused used clean
    rwa [same, origin] at refused

/-- The inner procedure waits once and then returns.  Whatever is tried after that is refused. -/
theorem Drives.stays_finished_inner : ∃ m f₁ m₁ f',
    Drives (ofEntry Relay.program Relay.inner.id [.int 41]) .detached [.finished .pending] m f₁ ∧
      Drives m f₁ [.finished (.ready (.ok (.int 42)))] m₁ f' ∧ f'.frames = [] ∧
      ∀ later m' f'', Drives m₁ f' later m' f'' →
        (∀ e ∈ later, e = .finished (.ready (.error (.fault
          (MachineFault.drivenAgain Relay.inner.id).message)))) ∧ f''.frames = [] := by
  let s : Scene Machine := ⟨.empty, .detached, .ofEntry Relay.program Relay.inner.id [.int 41]⟩
  let s' := ((s.body.execute 20).run s).2
  have first : Drive.Runs (s.body.execute 20) s.fiber s.body (.finished .pending) s'.fiber s'.body :=
    Drive.runs_run (s.body.execute 20) s
  have second : Drive.Runs (s'.body.execute 20) s'.fiber s'.body
      (.finished (.ready (.ok (.int 42)))) _ _ :=
    Drive.runs_run (s'.body.execute 20) s'
  have before : Drives s.body s.fiber [.finished .pending] s'.body s'.fiber := .cons rfl first .nil
  have last := Drives.cons rfl second .nil
  obtain ⟨frames, refused⟩ := Drives.stays_finished rfl before last
  have clean := frames.resolve_right fun ⟨_, _, wrong⟩ => nomatch wrong
  exact ⟨_, _, _, _, before, last, clean, refused clean⟩

/-- A procedure that was not woven calls `yield`.  The first drive ends with a fault and a
frame of `yield`; the second one enters that frame and ends with its unit. -/
theorem driven_past_fault : ∃ m f' m' f'',
    Drives (ofEntry ⟨[Relay.inner]⟩ Relay.inner.id [.int 41]) .detached
      [.finished (.ready (.error (.fault
        (MachineFault.notSuspensionPoint Relay.inner.id Primitive.yield.procId).message)))] m f' ∧
      f'.frames = [⟨Primitive.yield.procId, Primitive.retryState, []⟩] ∧
      Drives m f' [.finished (.ready (.ok .unit))] m' f'' := by
  let s : Scene Machine :=
    ⟨.empty, .detached, .ofEntry ⟨[Relay.inner]⟩ Relay.inner.id [.int 41]⟩
  let s' := ((s.body.execute 20).run s).2
  have first : Drive.Runs (s.body.execute 20) s.fiber s.body
      (.finished (.ready (.error (.fault
        (MachineFault.notSuspensionPoint Relay.inner.id Primitive.yield.procId).message))))
      s'.fiber s'.body := Drive.runs_run (s.body.execute 20) s
  have second : Drive.Runs (s'.body.execute 20) s'.fiber s'.body
      (.finished (.ready (.ok .unit))) _ _ := Drive.runs_run (s'.body.execute 20) s'
  exact ⟨s'.body, s'.fiber, _, _, .cons rfl first .nil, rfl, .cons rfl second .nil⟩

end Machine

end Resumable
