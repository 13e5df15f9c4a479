import Resumable.Proofs.Machine.Equivalence
import Resumable.Proofs.Machine.Uninterrupted
import Resumable.Proofs.Machine.Waiting

/-!
# Going on where it was

A machine on woven procedures leaves its callers when a primitive has to wait, and enters them
again later, any number of times.  What it does is nevertheless what an uninterrupted run of
the original procedures does (`Machine.Rests.drive`): nothing that was done before is done
again, and a call that waits is tried again until it returns, without any effect in between.

`Program.Pursues` relates a state of the uninterrupted run, and what was done of its next step,
to the state of the machine.  While the machine works this is `Program.Matches`.  While it
leaves its callers, waits and comes back to the call, the other run stays before that call.
-/

namespace Resumable

namespace Config

/-! ## A machine that works -/

/-- The frames that the machine is still to enter. -/
def entering (c : Config) : List Frame :=
  match c.focus with
  | .reenter frame _ => frame :: c.outer.getD []
  | _ => c.outer.getD []

/-- The machine works, and the frames that it is still to enter are those of procedures. -/
structure Works (c : Config) : Prop where
  active : c.Active
  frames : ∀ frame ∈ c.entering, Primitive.ofProc? frame.proc = none

/-- How a step ends that hands the end of a primitive to the caller. -/
def handing (c : Config) : Ending (Except MachineFault Outcome) → Ending Progress
  | .finished result => .finished (.ofExcept (result.map c.delivering))
  | .violated message => .violated message
  | .diverged => .diverged

/-- What holds after a step that runs no primitive. -/
def Worked : Progress → Prop
  | .running next => next.Works
  | .halted r => r ≠ .ok .suspended

variable {c : Config} {σ : Type}

theorem Inside.worked {r : Except MachineFault Config} (h : c.Inside r)
    (frames : ∀ frame ∈ c.outer.getD [], Primitive.ofProc? frame.proc = none) :
    Worked (.ofExcept r) := by
  cases h with
  | fault => rintro ⟨⟩
  | running => exact ⟨by rintro ⟨⟩, frames⟩
  | completed => exact ⟨by rintro ⟨⟩, frames⟩
  | calling => exact ⟨by rintro ⟨⟩, frames⟩

theorem Works.step (works : c.Works) (other : c.primitive? = none) (program : Program) :
    (c.step program : Drive σ Progress).Ends Worked := by
  obtain ⟨focus, callers, outer⟩ := c
  obtain ⟨active, frames⟩ := works
  cases focus with
  | call target args =>
    have other : Primitive.ofProc? target = none := other
    simp only [step, other]
    exact (inside_entered program target args).worked frames
  | reenter frame completion =>
    have other : Primitive.ofProc? frame.proc = none := other
    simp only [step, other]
    exact (inside_reentered program frame completion).worked
      fun frame mem => frames frame (List.mem_cons_of_mem _ mem)
  | run a =>
    simp only [step]
    split
    · exact .bind fun text => (inside_afterStmt text _).worked frames
    · exact (inside_afterTerminator _).worked frames
  | deliver outcome =>
    cases outcome with
    | suspended => exact absurd rfl active
    | completed completion =>
      cases callers with
      | cons caller callers => exact (inside_afterCall caller completion).worked frames
      | nil =>
        rcases outer with - | (- | ⟨frame, frames'⟩)
        · rintro ⟨⟩
        · exact .bind fun _ => by rintro ⟨⟩
        · exact ⟨by rintro ⟨⟩, frames⟩

/-- Such a step asks once at most, and only for what concerns nobody else. -/
theorem brief_step (other : c.primitive? = none) (program : Program) :
    Drive.Brief (c.step program : Drive σ Progress) := by
  obtain ⟨focus, callers, outer⟩ := c
  cases focus with
  | call target args =>
    have other : Primitive.ofProc? target = none := other
    simp only [step, other]
    exact .done
  | reenter frame completion =>
    have other : Primitive.ofProc? frame.proc = none := other
    simp only [step, other]
    exact .done
  | run a =>
    simp only [step]
    split
    · exact .ask rfl
    · exact .done
  | deliver outcome =>
    rcases callers with - | ⟨caller, callers⟩
    · rcases outer with - | (- | ⟨frame, frames⟩) <;> cases outcome
      all_goals first
        | exact .done
        | exact .ask rfl
    · cases outcome with
      | completed completion => exact .done
      | suspended =>
        simp only [step, suspendCaller]
        split
        · exact .done
        · split
          · exact .done
          · exact .ask rfl

end Config

namespace Program

variable {original program : Program} {live : Liveness} {a b : Activation} {c c' k : Config}
  {f f' : Fiber} {rank : Nat} {σ : Type} {s s' : σ} {log : List Ask} {p : Ending Progress}
  {begun es more : List Deed}

/-! ## Statements -/

/-- Two activations that go along execute the same statement next. -/
theorem Along.statement?_eq {needed : LocalId → Prop} (along : program.Along live needed a b) :
    b.statement? = a.statement? := by
  have follows := along.follows
  unfold Activation.statement?
  cases rest : b.rest with
  | cons s more' =>
    rw [rest] at follows
    obtain ⟨more, next, -⟩ := follows.cons
    rw [next]
  | nil =>
    rw [rest] at follows
    rcases follows.nil along.stands with ⟨last, same⟩ |
      ⟨more, dst, func, args, state, save, next, call, last, -⟩
    · rw [last, same]
    · rw [call, last]
      rfl

/-- A terminator that only goes to a block is not a call. -/
theorem call?_of_jump {t : Terminator} {id : BlockId} {d : Block}
    (jump : ∀ c : Config, c.afterTerminator b t = c.goto b id)
    (found : b.proc.block? id = some d) : t.call? = none := by
  cases t with
  | suspendCall dst func args state save next =>
    have same := jump (.ofFrames [])
    rw [goto_eq found] at same
    simp only [Config.afterTerminator] at same
    cases values : b.evaluateAll args with
    | error fault =>
      rw [values] at same
      cases same
    | ok vs =>
      rw [values] at same
      cases same
  | _ => rfl

/-! ## Steps that run no primitive -/

/-- A machine that works is either about to go to a block, which the interpretation has reached,
or it executes what the interpretation executes next. -/
theorem Matches.executes_cases (h : program.Matches rank c k f) (works : k.Works)
    (other : k.primitive? = none) :
    (k.executes = [] ∧ ∃ next, (k.step program : Drive σ Progress) = .done (.running next) ∧
        program.Matches 0 c next f) ∨
      c.primitive? = none ∧ k.executes = c.executes ∧ (rank = 0 ∨ k.executes = []) := by
  cases h with
  | call waits clean => exact Or.inr ⟨other, rfl, Or.inr rfl⟩
  | @run live a b callers callers' outer outer' _ along waits clean =>
    refine Or.inr ⟨rfl, ?_, Or.inl rfl⟩
    unfold Config.executes
    simp only [along.statement?_eq, along.hosts.work.id]
  | @jumping live a b id d callers callers' outer outer' _ shadows last jump found follows agree
      waits clean =>
    refine Or.inl ⟨?_, ⟨.run { b with block := d, rest := d.statements }, callers', outer'⟩, ?_,
      .run ⟨⟨shadows.hosts, shadows.block, shadows.suffix⟩, List.mem_of_getElem? found, follows,
        agree⟩ waits clean⟩
    · simp only [Config.executes, Activation.statement?, last, call?_of_jump jump found]
      rfl
    · simp only [Config.step, last]
      rw [jump, goto_eq found]
      rfl
  | completed waits clean => exact Or.inr ⟨rfl, rfl, Or.inr rfl⟩
  | reenter waits clean => exact Or.inr ⟨rfl, rfl, Or.inr rfl⟩
  | dispatching parked saved entry waits clean =>
    obtain ⟨old, states, resume, here, -⟩ := parked.point.resumes.taken
    rw [entry, Option.some.injEq] at here
    subst here
    exact Or.inr ⟨rfl, rfl, Or.inr rfl⟩
  | restoring parked saved waits clean => exact Or.inr ⟨rfl, rfl, Or.inr rfl⟩
  | resuming parked waits clean => exact Or.inr ⟨rfl, rfl, Or.inr rfl⟩
  | suspended named leaves held waits => exact absurd rfl works.active
  | resumed waits clean =>
    exact absurd (works.frames yieldFrame List.mem_cons_self) (by decide)
  | retrying waits clean =>
    exact absurd (works.frames yieldFrame List.mem_cons_self) (by decide)

/-- An interpretation goes on by itself unless it has come to a primitive. -/
theorem Matches.not_blocked (h : program.Matches rank c k f) (other : c.primitive? = none)
    (commons : Commons) : Interpretation.step original ⟨c, commons⟩ ≠ .blocked := by
  have forward : c.focus ≠ .deliver .suspended ∧ ∀ frame completion,
      c.focus ≠ .reenter frame completion := by
    cases h <;> simp [Outcome.returned]
  have goes : ∀ r, Interpretation.ofExcept commons r ≠ .blocked := by
    rintro (fault | next) <;> simp [Interpretation.ofExcept]
  obtain ⟨focus, callers, outer⟩ := c
  cases focus with
  | call target args =>
    have other : Primitive.ofProc? target = none := other
    simp only [Interpretation.step, other]
    exact goes _
  | reenter frame completion => exact absurd rfl (forward.2 frame completion)
  | run a =>
    simp only [Interpretation.step]
    split <;> exact goes _
  | deliver outcome =>
    cases outcome with
    | suspended => exact absurd rfl forward.1
    | completed completion =>
      cases callers with
      | nil => simp [Interpretation.step]
      | cons caller callers => exact goes _

/-! ## The relation -/

/-- What waits for a call are frames of procedures. -/
theorem Waits.notPrimitive {target : ProcId} {callers : List Caller} {waiting : List Waiter}
    {frame : Frame} (waits : program.Waits target callers waiting)
    (mem : .frame frame ∈ waiting) : Primitive.ofProc? frame.proc = none := by
  induction waits with
  | nil => cases mem
  | cons head rest ih =>
    rcases List.mem_cons.1 mem with rfl | inside
    · cases head with
      | saved parked saved => exact parked.hosts.notPrimitive
    · exact ih inside

/-- A state of an uninterrupted run with what was done of its next step, and a state of the
machine that does the same work. -/
inductive Pursues (program : Program) : Config → List Deed → Config → Fiber → Prop
  | working {rank : Nat} {c k : Config} {f : Fiber} (matched : program.Matches rank c k f)
      (works : k.Works) : Pursues program c [] k f
  /-- The callers of a primitive are left. -/
  | leaving {target : ProcId} {args : List Value} {which : Primitive} {asks : List Ask}
      {callers callers' : List Caller} {outer outer' : Option (List Frame)}
      {inner frames : List Frame} {f : Fiber} (named : Primitive.ofProc? target = some which)
      (saves : which.Saves args asks inner f.reason) (held : f.frames = inner ++ frames)
      (waits : program.Waits target callers (frames.map .frame ++ waiters callers' outer')) :
    Pursues program ⟨.call target args, callers, outer⟩
      (.called which args :: asks.map .asked) ⟨.deliver .suspended, callers', outer'⟩ f
  /-- The call is about to be tried again. -/
  | resumed {target : ProcId} {args slots : List Value} {which : Primitive} {asks : List Ask}
      {callers : List Caller} {outer : Option (List Frame)} {frames : List Frame} {f : Fiber}
      (named : Primitive.ofProc? target = some which) (pending : which.Pending args asks slots)
      (waits : program.Waits target callers (frames.map .frame)) (clean : f.frames = []) :
    Pursues program ⟨.call target args, callers, outer⟩ (.called which args :: asks.map .asked)
      (.ofFrames (which.frame slots :: frames)) f
  | retrying {target : ProcId} {args slots : List Value} {which : Primitive} {asks : List Ask}
      {completion : Completion} {callers : List Caller} {outer : Option (List Frame)}
      {frames : List Frame} {f : Fiber} (named : Primitive.ofProc? target = some which)
      (pending : which.Pending args asks slots)
      (waits : program.Waits target callers (frames.map .frame)) (clean : f.frames = []) :
    Pursues program ⟨.call target args, callers, outer⟩ (.called which args :: asks.map .asked)
      ⟨.reenter (which.frame slots) completion, [], some frames⟩ f

theorem Pursues.begins (h : program.Pursues c begun k f) : c.Begins begun := by
  cases h with
  | working matched works => exact .nothing
  | leaving named saves held waits => exact .call named saves.begun
  | resumed named pending waits clean => exact .call named (Or.inr ⟨_, pending⟩)
  | retrying named pending waits clean => exact .call named (Or.inr ⟨_, pending⟩)

/-- With these deeds a machine has come as far as an uninterrupted run from a state. -/
inductive Reaches (original program : Program) (c : Config) :
    List Deed → Config → Fiber → Prop
  | intro {done begun : List Deed} {c' k : Config} {f : Fiber}
      (run : Uninterrupted original c done c') (still : program.Pursues c' begun k f) :
    Reaches original program c (done ++ begun) k f

theorem Pursues.reaches (still : program.Pursues c begun k f) :
    original.Reaches program c begun k f := by
  have reaches := Reaches.intro (Uninterrupted.nil : Uninterrupted original c [] c) still
  rw [List.nil_append] at reaches
  exact reaches

theorem Does.reaches (step : original.Does c es c') (still : program.Pursues c' [] k f) :
    original.Reaches program c es k f := by
  have reaches := Reaches.intro (.single step) still
  rw [List.append_nil] at reaches
  exact reaches

theorem Reaches.unbroken (h : original.Reaches program c es k f) : Unbroken original c es := by
  obtain ⟨run, still⟩ := h
  exact .intro run still.begins

/-- What the deeds of a machine are for an uninterrupted run from a state after a step of the
machine. -/
inductive Pursued (original program : Program) (c : Config) :
    List Deed → Ending Progress → Fiber → Prop
  | on {es : List Deed} {k : Config} {f : Fiber} (reaches : original.Reaches program c es k f) :
    Pursued original program c es (.finished (.running k)) f
  /-- The drive ends, and the task waits. -/
  | left {es : List Deed} {f : Fiber}
      (reaches : original.Reaches program c es ⟨.deliver .suspended, [], none⟩ f) :
    Pursued original program c es (.finished (.halted (.ok .suspended))) f
  | past {es : List Deed} {p : Ending Progress} {e : Ending (Except MachineFault Outcome)}
      {f : Fiber} (unbroken : Unbroken original c es) (ends : p.last? = some e)
      (other : e ≠ .finished (.ok .suspended)) : Pursued original program c es p f

/-! ## Steps -/

/-- A step of a machine that works and runs no primitive. -/
theorem Matches.pursued (mirrors : original.Mirrors program) (h : program.Matches rank c k f)
    (works : k.Works) (other : k.primitive? = none)
    (step : Drive.Logs (k.step program) f s log p f' s') :
    s' = s ∧ original.Pursued program c (k.deeds log p) p f' := by
  obtain ⟨rfl, own, commons, commons', run⟩ := step.brief (Config.brief_step other program)
  refine ⟨rfl, ?_⟩
  have runs := Drive.runs_run (k.step program) ⟨commons, f, s'⟩
  rw [Config.deeds_of_quiet other own]
  rcases h.executes_cases works other with ⟨none, next, jump, still⟩ | ⟨other', same, lags⟩
  · -- the interpretation is at the block already
    rw [run] at runs
    rw [jump] at run
    cases run
    rw [Config.closing_running other, none]
    exact .on (Pursues.working still (runs.ends (works.step other program))).reaches
  · have advances := (h.step (i := ⟨c, commons⟩) (m := s') mirrors).resolve_left
      (h.not_blocked other' commons)
    rw [run] at advances runs
    cases advances with
    | stutter lt still =>
      rw [Config.closing_running other, lags.resolve_left (by omega)]
      exact .on (Pursues.working still (runs.ends (works.step other program))).reaches
    | step stepped matched =>
      obtain ⟨rank, still⟩ := matched
      rw [Config.closing_running other, same]
      exact .on ((Does.work other' stepped).reaches
        (.working still (runs.ends (works.step other program))))
    | ended stepped halts =>
      have last := runs.ends (works.step other program)
      refine .past Config.Begins.nothing.unbroken rfl fun same => ?_
      exact last (Ending.finished.inj same)
    | yielded stepped reason held resumed =>
      -- only a primitive ends a drive that is to go on
      exact absurd rfl (runs.ends (works.step other program))

/-! ## Attempts at a primitive -/

/-- An attempt at a primitive hands its end to the caller. -/
theorem logs_perform {which : Primitive} {args : List Value} {again : Bool}
    (step : Drive.Logs (k.perform which args again) f s log p f' s') :
    ∃ r, Drive.Logs (which.perform args again) f s log r f' s' ∧ p = k.handing r := by
  rcases step.bind_cases with ⟨result, f₁, s₁, first, second, rfl, attempt, rest⟩ |
    ⟨message, rfl, attempt⟩ | ⟨rfl, attempt⟩
  · cases rest
    rw [List.append_nil]
    exact ⟨.finished result, attempt, rfl⟩
  · exact ⟨.violated message, attempt, rfl⟩
  · exact ⟨.diverged, attempt, rfl⟩

/-- A machine goes on with its callers when a call has ended. -/
theorem Waits.works {target : ProcId} {callers : List Caller}
    (waits : program.Waits target callers (waiters k.callers k.outer)) (completion : Completion) :
    (k.delivering (.completed completion)).Works where
  active := by
    rintro ⟨⟩
  frames frame mem := by
    refine waits.notPrimitive (List.mem_append_right _ ?_)
    exact List.mem_map_of_mem mem

/-- An attempt at a primitive ends with the call that an uninterrupted run makes at once, or
the machine waits for another attempt, or it is over. -/
theorem Waits.tried {which : Primitive} {target : ProcId} {args : List Value}
    {callers : List Caller} {outer : Option (List Frame)} {asks : List Ask}
    {r : Ending (Except MachineFault Outcome)} (named : Primitive.ofProc? target = some which)
    (performed : k.primitive? = some which)
    (waits : program.Waits target callers (waiters k.callers k.outer))
    (tries : which.Tries args asks r f) :
    original.Pursued program ⟨.call target args, callers, outer⟩
      (.called which args :: (asks.map .asked ++ k.closing (k.handing r))) (k.handing r) f := by
  match r with
  | .finished (.ok (.completed completion)) =>
    obtain ⟨performs, clean⟩ := tries
    have answered : k.closing (k.handing (.finished (.ok (.completed completion)))) =
        [.answered which completion] := by
      simp only [Config.closing, Config.handing, Except.map, Progress.ofExcept, performed,
        Config.delivering]
    rw [answered]
    exact .on ((Does.perform named performs).reaches
      (.working (.completed waits clean) (waits.works completion)))
  | .finished (.ok .suspended) =>
    have quiet : k.closing (k.handing (.finished (.ok .suspended))) = [] := by
      simp only [Config.closing, Config.handing, Except.map, Progress.ofExcept, performed,
        Config.delivering]
    rw [quiet, List.append_nil]
    -- no caller was left yet
    exact .on (Pursues.leaving named tries (List.append_nil _).symm waits).reaches
  | .finished (.error fault) =>
    rw [show k.closing (k.handing (.finished (.error fault))) = [] from rfl, List.append_nil]
    exact .past (Config.Begins.call named tries).unbroken rfl (by rintro ⟨⟩)
  | .violated message =>
    rw [show k.closing (k.handing (.violated message)) = [] from rfl, List.append_nil]
    exact .past (Config.Begins.call named tries).unbroken rfl (by rintro ⟨⟩)
  | .diverged =>
    rw [show k.closing (k.handing .diverged) = [] from rfl, List.append_nil]
    exact .past (Config.Begins.call named tries).unbroken rfl (by rintro ⟨⟩)

/-- The first attempt is made when the interpretation calls the primitive. -/
theorem Matches.calls {which : Primitive} (h : program.Matches rank c k f) (works : k.Works)
    (performed : k.primitive? = some which) :
    ∃ target args callers outer, c = ⟨.call target args, callers, outer⟩ ∧
      k.focus = .call target args ∧ Primitive.ofProc? target = some which ∧ f.frames = [] ∧
      program.Waits target callers (waiters k.callers k.outer) := by
  cases h with
  | call waits clean => exact ⟨_, _, _, _, rfl, rfl, performed, clean, waits⟩
  | reenter waits clean =>
    have other := waits.notPrimitive List.mem_cons_self
    exact absurd (other.symm.trans performed) (by rintro ⟨⟩)
  | retrying waits clean =>
    exact absurd (works.frames yieldFrame List.mem_cons_self) (by decide)
  | _ => cases performed

/-- A step of a machine that works and runs a primitive. -/
theorem Matches.performed {which : Primitive} (h : program.Matches rank c k f) (works : k.Works)
    (performed : k.primitive? = some which)
    (step : Drive.Logs (k.step program) f s log p f' s') :
    s' = s ∧ original.Pursued program c (k.deeds log p) p f' := by
  obtain ⟨target, args, callers, outer, rfl, focus, named, clean, waits⟩ := h.calls works performed
  have opening : k.opening = [.called which args] := by
    simp only [Config.opening, focus, named, Option.map_some, Option.toList_some]
  simp only [Config.step, focus, named] at step
  obtain ⟨r, attempt, rfl⟩ := logs_perform step
  obtain ⟨same, tries⟩ := Primitive.records_perform which args clean _ _ _ _ _ attempt
  rw [Config.deeds, opening]
  exact ⟨same, waits.tried named performed tries⟩

/-! ## Leaving and coming back -/

/-- The callers of a call that waits are left one by one, until the drive ends. -/
theorem Waits.leaves {which : Primitive} {target : ProcId} {args : List Value} {asks : List Ask}
    {callers callers' : List Caller} {outer outer' : Option (List Frame)}
    {inner frames : List Frame} (named : Primitive.ofProc? target = some which)
    (saves : which.Saves args asks inner f.reason) (held : f.frames = inner ++ frames)
    (waits : program.Waits target callers (frames.map .frame ++ waiters callers' outer'))
    {commons commons' : Commons}
    (run : ((⟨.deliver .suspended, callers', outer'⟩ : Config).step program).run
      ⟨commons, f, s⟩ = (p, ⟨commons', f', s⟩)) :
    original.Pursued program ⟨.call target args, callers, outer⟩
      (.called which args :: asks.map .asked) p f' := by
  match callers', outer' with
  | [], none =>
    cases run
    exact .left (Pursues.leaving named saves held waits).reaches
  | [], some more =>
    cases run
    have held' : f.frames ++ more = inner ++ (frames ++ more) := by
      rw [held, List.append_assoc]
    refine .left (Pursues.leaving (f := f.unwindRest more) named saves held' ?_).reaches
    rw [show waiters [] none = [] from rfl, List.append_nil, List.map_append]
    exact waits
  | caller :: callers', outer' =>
    change program.Waits target callers (_ ++ .caller caller :: waiters callers' outer') at waits
    obtain ⟨dst, state, save, next, slots, awaiting, saved, rest⟩ :=
      waits.unwound (.primitive named saves.suspends)
    simp only [Config.step, Config.suspendCaller, awaiting, saved] at run
    cases run
    refine .on (Pursues.leaving (f := f.unwind _) named saves ?_ rest).reaches
    show f.frames ++ _ = _
    rw [held, List.append_assoc]

/-- What a step of the machine does goes on with what an uninterrupted run does. -/
theorem Pursues.step (mirrors : original.Mirrors program) (h : program.Pursues c begun k f)
    (step : Drive.Logs (k.step program) f s log p f' s') :
    s' = s ∧ original.Pursued program c (begun ++ k.deeds log p) p f' := by
  have quiet : ∀ callers outer outcome,
      Config.closing ⟨.deliver outcome, callers, outer⟩ p = [] := by
    intro callers outer outcome
    rcases p with (next | result) | message | - <;> rfl
  cases h with
  | working matched works =>
    cases runs : k.primitive? with
    | none => exact matched.pursued mirrors works runs step
    | some which => exact matched.performed works runs step
  | leaving named saves held waits =>
    obtain ⟨rfl, own, commons, commons', run⟩ := step.brief (Config.brief_step rfl program)
    rw [Config.deeds_of_quiet rfl own, quiet, List.append_nil]
    exact ⟨rfl, waits.leaves named saves held run⟩
  | resumed named pending waits clean =>
    obtain ⟨rfl, own, commons, commons', run⟩ := step.brief (Config.brief_step rfl program)
    rw [Config.deeds_of_quiet rfl own, Config.ofFrames, quiet, List.append_nil]
    cases run
    exact ⟨rfl, .on (Pursues.retrying named pending waits clean).reaches⟩
  | @retrying target args slots which asks completion callers outer frames _ named pending waits
      clean =>
    have performed : Primitive.ofProc? (which.frame slots).proc = some which := ofProc?_procId which
    simp only [Config.step, performed] at step
    obtain ⟨r, attempt, rfl⟩ := logs_perform step
    obtain ⟨same, tries⟩ := Primitive.records_again pending clean _ _ _ _ _ attempt
    have tried : original.Pursued program ⟨.call target args, callers, outer⟩ _ _ f' :=
      waits.tried (k := ⟨.reenter (which.frame slots) completion, [], some frames⟩) named
        performed tries
    rw [List.map_append, List.append_assoc] at tried
    exact ⟨same, tried⟩

/-! ## Drives -/

theorem Pursued.after (run : Uninterrupted original c es c')
    (h : original.Pursued program c' more p f) : original.Pursued program c (es ++ more) p f := by
  have reaches : ∀ {k : Config}, original.Reaches program c' more k f →
      original.Reaches program c (es ++ more) k f := by
    rintro k ⟨run', still⟩
    rw [← List.append_assoc]
    exact .intro (run.append run') still
  cases h with
  | on still => exact .on (reaches still)
  | left still => exact .left (reaches still)
  | past unbroken ends other => exact .past (run.unbroken unbroken) ends other

theorem Reaches.step (mirrors : original.Mirrors program) (h : original.Reaches program c es k f)
    (step : Drive.Logs (k.step program) f s log p f' s') :
    s' = s ∧ original.Pursued program c (es ++ k.deeds log p) p f' := by
  obtain ⟨run, still⟩ := h
  obtain ⟨same, pursued⟩ := still.step mirrors step
  rw [List.append_assoc]
  exact ⟨same, pursued.after run⟩

/-- A run of the machine goes on with the uninterrupted run, by induction on its steps. -/
theorem Reaches.run (mirrors : original.Mirrors program) (h : original.Reaches program c es k f)
    {e : Ending (Except MachineFault Outcome)} (tells : k.Tells program f s log more e f' s') :
    s' = s ∧ Unbroken original c (es ++ more) ∧ (e = .finished (.ok .suspended) →
      original.Reaches program c (es ++ more) ⟨.deliver .suspended, [], none⟩ f') := by
  induction tells generalizing es with
  | stop =>
    rw [List.append_nil]
    exact ⟨rfl, h.unbroken, by rintro ⟨⟩⟩
  | step step rest ih =>
    obtain ⟨rfl, pursued⟩ := h.step mirrors step
    rw [← List.append_assoc]
    cases pursued with
    | on reaches => exact ih reaches
    | past unbroken ends other => cases ends
  | last step ends =>
    obtain ⟨rfl, pursued⟩ := h.step mirrors step
    refine ⟨rfl, ?_⟩
    cases pursued with
    | on reaches => cases ends
    | left reaches => exact ⟨reaches.unbroken, fun _ => reaches⟩
    | past unbroken ends' other =>
      rw [ends'] at ends
      cases ends
      exact ⟨unbroken, fun same => absurd same other⟩

/-- A task that waits and is driven again enters its frames, the one of the primitive first. -/
theorem Pursues.again (h : program.Pursues c begun ⟨.deliver .suspended, [], none⟩ f)
    (waits : f.reason.any PauseReason.isDone = false) :
    f.frames ≠ [] ∧
      ∀ f' : Fiber, f'.frames = [] → program.Pursues c begun (.ofFrames f.frames) f' := by
  cases h with
  | working matched works => exact absurd rfl works.active
  | @leaving target args which asks callers _ outer _ inner frames _ named saves held rest =>
    -- a task that ends itself saves no frame of its own, but it is not driven again
    cases saves with
    | exit suspends none ends =>
      rw [waits] at ends
      cases ends
    | @frame slots _ pending =>
      rw [held]
      refine ⟨List.cons_ne_nil _ _, fun f' clean => .resumed named pending ?_ clean⟩
      rw [show waiters [] none = [] from rfl, List.append_nil] at rest
      exact rest

end Program

namespace Machine

variable {original program : Program} {entry : ProcId} {args : List Value} {m m' : Machine}
  {f f₀ f' : Fiber} {asks log : List Ask} {es more : List Deed}
  {e : Ending (Except MachineFault Outcome)}

/-- A machine that may be driven: it has done nothing yet, or it waits. -/
inductive Rests (original program : Program) (entry : ProcId) (args : List Value) :
    List Deed → Machine → Fiber → Prop
  | fresh {f : Fiber} (clean : f.frames = []) :
    Rests original program entry args [] (ofEntry program entry args) f
  | left {es : List Deed} {m : Machine} {f : Fiber} (same : m.program = program)
      (waits : f.reason.any PauseReason.isDone = false)
      (reaches : original.Reaches program (.ofCall entry args) es ⟨.deliver .suspended, [], none⟩
        f) :
    Rests original program entry args es m f

/-- A drive goes on with what was done in the drives before. -/
theorem Rests.drive (mirrors : original.Mirrors program)
    (rests : Rests original program entry args es m f) (kept : f₀.frames = f.frames)
    (drive : m.Tells f₀ log more e f' m') :
    m'.program = program ∧ Unbroken original (.ofCall entry args) (es ++ more) ∧
      (e = .finished (.ok .suspended) → original.Reaches program (.ofCall entry args) (es ++ more)
        ⟨.deliver .suspended, [], none⟩ f') := by
  cases rests with
  | fresh clean =>
    cases drive with
    | call clean' asks run =>
      have works : (Config.ofCall entry args).Works := ⟨by rintro ⟨⟩, by rintro frame ⟨⟩⟩
      have start : program.Pursues (.ofCall entry args) [] (.ofCall entry args) f₀ :=
        .working (.call .nil clean') works
      obtain ⟨rfl, after⟩ := start.reaches.run mirrors run
      exact ⟨rfl, after⟩
    | resume saved asks rewinds run => exact absurd (kept.trans clean) saved
  | left same waits reaches =>
    obtain ⟨run₀, still⟩ := reaches
    obtain ⟨saved, again⟩ := still.again waits
    rw [← kept] at saved again
    cases drive with
    | call clean asks run => exact absurd clean saved
    | refuse clean asks => exact absurd clean saved
    | resume saved asks rewinds run =>
      subst same
      have reaches := Program.Reaches.intro run₀ (again f₀.rewind.2 rfl)
      obtain ⟨rfl, after⟩ := reaches.run mirrors run
      exact ⟨rfl, after⟩

/-- By induction on the drives. -/
theorem Lives.rests (mirrors : original.Mirrors program)
    (lives : Lives program entry args asks es m f) : Rests original program entry args es m f := by
  induction lives with
  | born clean => exact .fresh clean
  | driven before kept drive waits ih =>
    obtain ⟨same, -, reaches⟩ := ih.drive mirrors kept drive
    exact .left same waits (reaches rfl)

end Machine

end Resumable
