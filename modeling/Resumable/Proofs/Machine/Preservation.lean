import Resumable.Proofs.Machine.Places

/-!
# Every step keeps the machine sane

One lemma for each part of a step: jumps, statements, terminators, calls, primitives and
the end of a call.  `Sane.step` joins them, and `Sane.run` follows by induction on the
bound on the steps.
-/

namespace Resumable

open MachineFault (Safe)

namespace Program

variable {program : Program} {entry : ProcId} {live : Liveness} {p w : Procedure}
  {a : Activation} {c : Config} {f : Fiber}

/-! ## Jumps -/

theorem Hosts.goto {id : BlockId} (hosts : program.Hosts live p a.proc)
    (length : a.locals.length = a.proc.locals.length) (lt : id.index < p.blocks.length)
    (context : program.Context entry a.proc.id c.callers c.outer) (clean : f.frames = []) :
    Safe (program.Sane entry · f) (c.goto a id) := by
  obtain ⟨b, block, -, rfl⟩ := hosts.work.sound.block?_of_lt lt
  obtain ⟨d, found, follows⟩ := hosts.work.blocks b block
  rw [goto_eq found]
  refine .run ⟨hosts, length, ?_⟩ context clean
  exact .code block (List.suffix_refl _) (List.mem_of_getElem? found) follows

theorem Hosts.raise (hosts : program.Hosts live p a.proc)
    (length : a.locals.length = a.proc.locals.length)
    (handled : ∀ h ∈ a.block.handler, h.target.index < p.blocks.length)
    (context : program.Context entry a.proc.id c.callers c.outer) (clean : f.frames = [])
    (v : Value) : Safe (program.Sane entry · f) (c.raise a v) := by
  unfold Config.raise
  cases handler : a.block.handler with
  | none => exact .completed context clean
  | some h =>
    refine ((a.safe_storeTo (some h.bind) v).mono ?_).bind
    rintro - ⟨locals, same, rfl⟩
    exact Hosts.goto (a := { a with locals }) hosts (same.trans length) (handled h handler)
      context clean

theorem Sited.raise (sited : program.Sited live p a)
    (context : program.Context entry a.proc.id c.callers c.outer) (clean : f.frames = [])
    (v : Value) : Safe (program.Sane entry · f) (c.raise a v) :=
  sited.hosts.raise sited.length (sited.place.handler sited.hosts.work.sound) context clean v

theorem Sited.complete (sited : program.Sited live p a)
    (context : program.Context entry a.proc.id c.callers c.outer) (clean : f.frames = [])
    (dst : Option LocalId) (completion : Completion) :
    Safe (program.Sane entry · f) (c.complete a dst completion) := by
  cases completion with
  | exception v => exact sited.raise context clean v
  | value v =>
    refine ((a.safe_storeTo dst v).mono ?_).bind
    rintro - ⟨locals, same, rfl⟩
    have sited' : program.Sited live p { a with locals } :=
      ⟨sited.hosts, same.trans sited.length, sited.place⟩
    exact .run sited' context clean

/-! ## Statements and terminators -/

/-- A statement of original code neither restores nor resumes. -/
theorem plain_of_suffix (work : program.Counterpart live p w) {b : Block} (block : b ∈ p.blocks)
    {s : Stmt} {more : List Stmt} (suffix : s :: more <:+ b.statements) :
    Procedure.isResumption s = false :=
  (work.sound.blocks b block).isResumption_stmt work.unwoven (suffix.subset List.mem_cons_self)

theorem Sited.afterStmt {s : Stmt} {rest : List Stmt} (text : Value → String)
    (sited : program.Sited live p a) (next : a.rest = s :: rest)
    (context : program.Context entry a.proc.id c.callers c.outer) (clean : f.frames = []) :
    Safe (program.Sane entry · f) (c.afterStmt text { a with rest } s) := by
  obtain ⟨hosts, length, place⟩ := sited
  rcases a with ⟨w, locals, resumption, block, rest'⟩
  dsimp only at next hosts length place context
  subst next
  generalize whole : s :: rest = statements at place
  cases place with
  | code mem suffix stands follows =>
    subst whole
    obtain ⟨more, rfl, quiet, follows⟩ := follows.cons
    have plain := plain_of_suffix hosts.work mem suffix
    have sited : program.Sited live p ⟨w, locals, resumption, block, rest⟩ :=
      ⟨hosts, length, .code mem ((List.suffix_cons s more).trans suffix) stands follows⟩
    cases s with
    | assign dst rvalue =>
      refine ((Activation.safe_compute _ text rvalue).mono fun completion _ => ?_).bind
      exact sited.complete context clean _ _
    | call dst func args =>
      refine ((Activation.safe_evaluateAll _ args).mono fun values _ => ?_).bind
      obtain ⟨bottom, stack, links⟩ := context
      exact .call ⟨bottom, .plain (quiet func rfl) sited stack, links⟩ clean
    | restore slots => cases plain
    | resume dst => cases plain
  | fresh => cases whole
  | dispatching => cases whole
  | restoring mem suffix point saved =>
    obtain ⟨rfl, rfl⟩ := List.cons.inj whole
    refine Safe.bind ?_
    rw [Activation.restore_eq rfl saved]
    refine ((Activation.safe_storeAllIn _ _ _).mono fun locals' same => ?_).bind
    exact .run ⟨hosts, same.trans length, .resuming mem suffix point⟩ context clean
  | resuming mem suffix point =>
    obtain ⟨rfl, rfl⟩ := List.cons.inj whole
    refine Safe.bind ?_
    rw [Activation.takeCompletion_eq rfl]
    exact Sited.complete ⟨hosts, length, .returning mem suffix point⟩ context clean _ _
  | returning => cases whole

theorem switchTarget_mem (n : Int64) (cases : List (Int64 × BlockId)) (fallback : BlockId) :
    Config.switchTarget n cases fallback ∈ cases.map Prod.snd ++ [fallback] := by
  unfold Config.switchTarget
  split
  · rename_i found
    exact List.mem_append_left _ (List.mem_map_of_mem (List.mem_of_find?_eq_some found))
  · exact List.mem_append_right _ List.mem_cons_self

/-- The terminator of an original block. -/
theorem Sited.originalTerminator {t : Terminator} (sited : program.Sited live p a)
    (edges : ∀ id ∈ t.successors, id.index < p.blocks.length) (plain : t.isResumption = false)
    (context : program.Context entry a.proc.id c.callers c.outer) (clean : f.frames = []) :
    Safe (program.Sane entry · f) (c.afterTerminator a t) := by
  cases t with
  | ret value =>
    cases value with
    | none => exact .completed context clean
    | some o =>
      exact ((a.safe_evaluate o).mono fun v _ => Sane.completed context clean).bind
  | goto target => exact sited.hosts.goto sited.length (edges target List.mem_cons_self) context clean
  | branch cond thenBlock elseBlock =>
    refine ((a.safe_evaluate cond).mono fun v _ => ?_).bind
    cases v with
    | bool b =>
      refine sited.hosts.goto sited.length (edges _ ?_) context clean
      cases b <;> simp [Terminator.successors]
    | _ => rfl
  | switch value cases fallback =>
    refine ((a.safe_evaluate value).mono fun v _ => ?_).bind
    cases v with
    | int n =>
      exact sited.hosts.goto sited.length (edges _ (switchTarget_mem n cases fallback)) context clean
    | _ => rfl
  | throw value =>
    exact ((a.safe_evaluate value).mono fun v _ => sited.raise context clean v).bind
  | unreachable => rfl
  | dispatch fresh states => cases plain
  | suspendCall dst func args state save next => cases plain

theorem Sited.afterTerminator (sited : program.Sited live p a) (next : a.rest = [])
    (context : program.Context entry a.proc.id c.callers c.outer) (clean : f.frames = []) :
    Safe (program.Sane entry · f) (c.afterTerminator a a.block.terminator) := by
  obtain ⟨hosts, length, place⟩ := sited
  have sited : program.Sited live p a := ⟨hosts, length, place⟩
  rcases a with ⟨w, locals, resumption, block, rest⟩
  dsimp only at next hosts length place context ⊢
  subst next
  cases place with
  | @code b c' rest _ _ mem suffix stands follows =>
    rcases follows.nil stands with ⟨rfl, same⟩ |
      ⟨more, dst, func, args, state, save, next, rfl, last, point⟩
    · rw [same]
      have sound := hosts.work.sound.blocks b mem
      exact sited.originalTerminator sound.edges
        (sound.isResumption_terminator hosts.work.unwoven) context clean
    · rw [last]
      refine ((Activation.safe_evaluateAll _ args).mono fun values _ => ?_).bind
      obtain ⟨bottom, stack, links⟩ := context
      refine .call ⟨bottom, .resumable hosts length mem ?_ follows.handler_eq point stack, links⟩
        clean
      exact (List.suffix_cons _ more).trans suffix
  | fresh =>
    refine Safe.bind ?_
    rw [Activation.dispatch_fresh rfl]
    exact sited.hosts.goto sited.length hosts.work.sound.entry context clean
  | dispatching mem suffix point saved entry =>
    obtain ⟨old, states, resume, here, arm, found⟩ := point.resumes.taken
    rw [entry, Option.some.injEq] at here
    subst here
    refine Safe.bind ?_
    rw [Activation.dispatch_eq rfl arm]
    show Safe _ (c.goto _ resume)
    rw [goto_eq found]
    exact .run ⟨hosts, length, .restoring mem suffix point saved⟩ context clean
  | returning mem suffix point =>
    obtain ⟨d, found, follows⟩ := point.continues
    show Safe _ (c.goto _ _)
    rw [goto_eq found]
    refine .run ⟨hosts, length, ?_⟩ context clean
    exact .code mem suffix (List.mem_of_getElem? found) follows

/-! ## Calls -/

/-- A caller goes on with the end of its call. -/
theorem Stack.afterCall {target bottom : ProcId} {caller : Caller} {callers : List Caller}
    {outer : Option (List Frame)} {focus : Focus}
    (stack : program.Stack target (caller :: callers) bottom)
    (links : program.Links bottom (outer.getD []) entry) (clean : f.frames = [])
    (completion : Completion) :
    Safe (program.Sane entry · f)
      ((⟨focus, callers, outer⟩ : Config).afterCall caller completion) := by
  cases stack with
  | plain quiet sited rest => exact sited.complete ⟨bottom, rest, links⟩ clean _ _
  | @resumable _ _ a dst live p b more state save next _ hosts length block suffix handler point
      rest =>
    cases completion with
    | value v =>
      refine ((a.safe_storeTo dst v).mono ?_).bind
      rintro - ⟨locals, same, rfl⟩
      obtain ⟨d, found, follows⟩ := point.continues
      rw [goto_eq (a := { a with locals }) found]
      refine .run ⟨hosts, same.trans length, ?_⟩ ⟨bottom, rest, links⟩ clean
      exact .code block suffix (List.mem_of_getElem? found) follows
    | exception v =>
      refine hosts.raise length (fun h mem => ?_) ⟨bottom, rest, links⟩ clean v
      rw [handler] at mem
      exact ((hosts.work.sound.blocks b block).handler h mem).1

theorem id_of_procedure? {id : ProcId} {w : Procedure} (found : program.procedure? id = some w) :
    w.id = id := by
  simpa using List.find?_some found

/-- A call begins at the entry of its procedure. -/
theorem entered_safe (faithful : program.Faithful) {target : ProcId} {args : List Value}
    (notPrimitive : Primitive.ofProc? target = none)
    (context : program.Context entry target c.callers c.outer) (clean : f.frames = []) :
    Safe (program.Sane entry · f) (c.entered program target args) := by
  unfold Config.entered
  cases found : program.procedure? target with
  | none => rfl
  | some w =>
    simp only
    cases body : w.hasBody with
    | false => rfl
    | true =>
      obtain ⟨live, p, work⟩ := faithful target w found body
      have same := id_of_procedure? found
      have hosts : program.Hosts live p w := ⟨work, by rw [same, found], by rw [same, notPrimitive]⟩
      rw [if_pos rfl]
      refine Safe.bind ?_
      unfold Activation.fresh
      split
      · rfl
      · refine ((Activation.safe_storeAllIn _ _ _).mono fun locals length => ?_).bind
        have length : locals.length = w.locals.length := by simpa [Activation.blank] using length
        rw [← same] at context
        unfold Activation.atBlock
        rcases work.entry with ⟨-, entry⟩ | ⟨-, states, entry⟩
        · obtain ⟨b, block, -, id⟩ := work.sound.block?_of_lt work.sound.entry
          obtain ⟨d, here, follows⟩ := work.blocks b block
          rw [entry, ← id, here]
          refine .run ⟨hosts, length, ?_⟩ context clean
          exact .code block (List.suffix_refl _) (List.mem_of_getElem? here) follows
        · rw [entry]
          exact .run ⟨hosts, length, .fresh⟩ context clean

/-- The frame of a caller is entered at the dispatcher. -/
theorem reentered_safe {frame : Frame} {frames : List Frame} {completion : Completion}
    {target : ProcId} (links : program.Links target (frame :: frames) entry)
    (outer : c.outer = some frames) (alone : c.callers = []) (clean : f.frames = []) :
    Safe (program.Sane entry · f) (c.reentered program frame completion) := by
  cases links with
  | @cons _ _ _ _ live p w b more dst save next id hosts block suffix point length rest =>
    unfold Config.reentered
    rw [← id, hosts.found]
    simp only [point.resumes.woven, if_true]
    obtain ⟨old, states, resume, here, arm, found⟩ := point.resumes.taken
    unfold Activation.resumed Activation.atBlock
    rw [here]
    refine .run ⟨hosts, ?_, .dispatching block suffix point length here⟩ ?_ clean
    · simp [Activation.blank]
    · refine ⟨w.id, ?_, ?_⟩
      · rw [alone]
        exact .nil
      · rw [outer, id]
        exact rest

/-! ## Primitives -/

/-- How a primitive may end when nothing is saved. -/
def Performed (which : Primitive) : Except MachineFault Outcome → Fiber → Prop
  | .ok (.completed _), f => f.frames = []
  | .ok .suspended, f => which.suspends = true ∧
    ((∃ slots, f.frames = [⟨which.procId, Primitive.retryState, slots⟩]) ∨
      f.frames = [] ∧ f.reason.any PauseReason.isDone = true)
  | .error fault, f => f.frames = [] ∧ fault.isResumption = false

variable {σ : Type}

theorem suspendWith_ensures {which : Primitive} {slots : List Value}
    (suspends : which.suspends = true) (clean : f.frames = []) :
    Drive.Ensures (σ := σ) (which.suspendWith slots) f (Performed which) := by
  refine Drive.Ensures.bind (Drive.Ensures.request ?_ ?_)
  · intro c r c' f' answer
    cases answer
    refine Drive.Ensures.done ⟨suspends, Or.inl ⟨slots, ?_⟩⟩
    unfold Fiber.unwind
    rw [clean]
    rfl
  · intro c v c' f' answer
    cases answer

theorem endTask_ensures {which : Primitive} {result : TaskResult}
    (suspends : which.suspends = true) (clean : f.frames = []) :
    Drive.Ensures (σ := σ) (Drive.bind (.request (.pause (.done result))) fun _ =>
      .done (.ok .suspended)) f (Performed which) := by
  refine Drive.Ensures.bind (Drive.Ensures.request ?_ ?_)
  · intro c r c' f' answer
    cases answer
    exact Drive.Ensures.done ⟨suspends, Or.inr ⟨clean, rfl⟩⟩
  · intro c v c' f' answer
    cases answer

theorem awaitAlarm_ensures (alarm : MailboxId) (clean : f.frames = []) :
    Drive.Ensures (σ := σ) (Primitive.awaitAlarm alarm) f (Performed .sleep) := by
  refine Drive.Ensures.bind (Drive.Ensures.keeping rfl clean fun r f' clean => ?_)
  cases r with
  | some _ => exact Drive.Ensures.done clean
  | none => exact suspendWith_ensures rfl clean

/-- A primitive completes with nothing saved, saves one frame of its own, or ends the
task. -/
theorem perform_ensures (which : Primitive) (args : List Value) (again : Bool)
    (clean : f.frames = []) :
    Drive.Ensures (σ := σ) (which.perform args again) f (Performed which) := by
  cases which with
  | print =>
    exact Drive.Ensures.bind (Drive.Ensures.keeping rfl clean fun _ _ clean =>
      Drive.Ensures.done clean)
  | getNb =>
    simp only [Primitive.perform]
    split
    · exact Drive.Ensures.done ⟨clean, rfl⟩
    · exact Drive.Ensures.bind (Drive.Ensures.keeping rfl clean fun _ _ clean =>
        Drive.Ensures.done clean)
  | putNb =>
    simp only [Primitive.perform]
    split
    · exact Drive.Ensures.bind (Drive.Ensures.keeping rfl clean fun _ _ clean =>
        Drive.Ensures.done clean)
    · exact Drive.Ensures.done ⟨clean, rfl⟩
  | yield =>
    simp only [Primitive.perform]
    split
    · exact Drive.Ensures.done clean
    · have give : ∀ f' : Fiber, f'.frames = [] → Drive.Ensures (σ := σ)
          (Drive.bind (.request (.pause .yielded)) fun _ => Primitive.yield.suspendWith []) f'
          (Performed .yield) := by
        intro f' clean
        exact Drive.Ensures.bind (Drive.Ensures.keeping rfl clean fun _ _ clean =>
          suspendWith_ensures rfl clean)
      cases args with
      | nil => exact give f clean
      | cons v _ =>
        exact Drive.Ensures.bind (Drive.Ensures.keeping rfl clean fun _ f' clean => give f' clean)
  | get =>
    simp only [Primitive.perform]
    split
    · exact Drive.Ensures.done ⟨clean, rfl⟩
    · refine Drive.Ensures.bind (Drive.Ensures.keeping rfl clean fun r f' clean => ?_)
      cases r with
      | some _ => exact Drive.Ensures.done clean
      | none => exact suspendWith_ensures rfl clean
  | put =>
    simp only [Primitive.perform]
    split
    · refine Drive.Ensures.bind (Drive.Ensures.keeping rfl clean fun r f' clean => ?_)
      cases r with
      | true => exact Drive.Ensures.done clean
      | false => exact suspendWith_ensures rfl clean
    · exact Drive.Ensures.done ⟨clean, rfl⟩
  | sleep =>
    simp only [Primitive.perform]
    split
    · split
      · exact Drive.Ensures.done ⟨clean, rfl⟩
      · exact awaitAlarm_ensures _ clean
    · split
      · exact Drive.Ensures.done ⟨clean, rfl⟩
      · refine Drive.Ensures.bind (Drive.Ensures.keeping rfl clean fun alarm f' clean => ?_)
        refine Drive.Ensures.bind (Drive.Ensures.keeping rfl clean fun _ f'' clean => ?_)
        exact awaitAlarm_ensures alarm clean
  | exit => exact endTask_ensures rfl clean
  | errorExit => exact endTask_ensures rfl clean

/-! ## Steps -/

/-- What holds after a step. -/
def Stepped (program : Program) (entry : ProcId) : Progress → Fiber → Prop
  | .running c, f => program.Sane entry c f
  | .halted r, f => program.Halted entry r f

theorem stepped_ofExcept {r : Except MachineFault Config} (clean : f.frames = [])
    (safe : Safe (program.Sane entry · f) r) :
    program.Stepped entry (.ofExcept r) f := by
  cases r with
  | error fault => exact ⟨clean, safe⟩
  | ok c => exact safe

/-- A call of a primitive, or another attempt at one. -/
theorem perform_stepped {which : Primitive} {target : ProcId} {args : List Value} {again : Bool}
    (named : Primitive.ofProc? target = some which)
    (context : program.Context entry target c.callers c.outer) (clean : f.frames = []) :
    Drive.Ensures (σ := σ) (c.perform which args again) f (program.Stepped entry) := by
  refine Drive.Ensures.bind ((perform_ensures which args again clean).mono fun r f' performed => ?_)
  refine Drive.Ensures.done ?_
  cases r with
  | error fault => exact performed
  | ok outcome =>
    cases outcome with
    | completed completion => exact .completed context performed
    | suspended =>
      obtain ⟨suspends, saved⟩ := performed
      refine .suspended context (.primitive named suspends)
        ⟨which, target, [], named, suspends, .nil, saved⟩

/-- A caller that is left saves a frame. -/
theorem suspendCaller_stepped {target bottom : ProcId} {caller : Caller} {callers : List Caller}
    {outer : Option (List Frame)} {focus : Focus}
    (stack : program.Stack target (caller :: callers) bottom)
    (links : program.Links bottom (outer.getD []) entry) (may : program.MaySuspend target)
    (saving : program.Saving target f) :
    Drive.Ensures (σ := σ) ((⟨focus, callers, outer⟩ : Config).suspendCaller caller) f
      (program.Stepped entry) := by
  cases stack with
  | plain quiet _ _ => exact absurd may quiet
  | @resumable _ _ a dst live p b more state save next _ hosts length block suffix handler point
      rest =>
    obtain ⟨slots, saved, same⟩ : ∃ slots, a.save save = .ok slots ∧
        slots.length = save.length := by
      refine a.exists_save fun l mem => ?_
      rw [length]
      exact Procedure.lt_of_declares (point.resumes.declared l mem)
    unfold Config.suspendCaller
    simp only [saved]
    refine Drive.Ensures.bind (Drive.Ensures.request ?_ ?_)
    · intro c r c' f' answer
      cases answer
      refine Drive.Ensures.done (.suspended ⟨bottom, rest, links⟩ (point.maySuspend hosts) ⟨?_⟩)
      obtain ⟨which, inner, frames, named, suspends, chain, held⟩ := saving.frames
      refine ⟨which, inner, frames ++ [⟨a.proc.id, state, slots⟩], named, suspends,
        chain.append (.cons rfl hosts block suffix point same .nil), ?_⟩
      unfold Fiber.unwind
      rcases held with ⟨retry, held⟩ | ⟨held, ended⟩
      · exact Or.inl ⟨retry, by rw [held]; rfl⟩
      · exact Or.inr ⟨by rw [held], ended⟩
    · intro c v c' f' answer
      cases answer

/-- What waits for a call without callers are frames. -/
theorem Context.links {target : ProcId} {outer : Option (List Frame)}
    (context : program.Context entry target [] outer) :
    program.Links target (outer.getD []) entry := by
  obtain ⟨bottom, stack, links⟩ := context
  cases stack
  exact links

/-- The end of a run hands over to the next saved frame, if there is one. -/
theorem finish_completed {completion : Completion} {focus : Focus} {frames : List Frame}
    (saved : program.Saved entry frames) (clean : f.frames = []) :
    Drive.Ensures (σ := σ) ((⟨focus, [], some frames⟩ : Config).finish (.completed completion)) f
      (program.Stepped entry) := by
  cases frames with
  | nil => exact Drive.Ensures.bind (Drive.Ensures.keeping rfl clean fun _ _ clean =>
      Drive.Ensures.done clean)
  | cons frame frames => exact Drive.Ensures.done (.reenter saved clean)

/-- The frames that were not entered yet are put behind the new ones. -/
theorem finish_suspended {target : ProcId} {focus : Focus} {outer : Option (List Frame)}
    (links : program.Links target (outer.getD []) entry) (saving : program.Saving target f) :
    Drive.Ensures (σ := σ) ((⟨focus, [], outer⟩ : Config).finish .suspended) f
      (program.Stepped entry) := by
  cases outer with
  | none =>
    cases links
    exact Drive.Ensures.done saving
  | some frames =>
    refine Drive.Ensures.bind (Drive.Ensures.request ?_ ?_)
    · intro c r c' f' answer
      cases answer
      refine Drive.Ensures.done ⟨?_⟩
      obtain ⟨which, inner, first, named, suspends, chain, held⟩ := saving.frames
      refine ⟨which, inner, first ++ frames, named, suspends, chain.append links, ?_⟩
      unfold Fiber.unwindRest
      rcases held with ⟨retry, held⟩ | ⟨held, ended⟩
      · exact Or.inl ⟨retry, by rw [held]; rfl⟩
      · exact Or.inr ⟨by rw [held], ended⟩
    · intro c v c' f' answer
      cases answer

theorem ofProc?_procId (which : Primitive) : Primitive.ofProc? which.procId = some which := by
  cases which <;> decide

/-- A step of a sane machine leads to a sane machine or to a proper end. -/
theorem Sane.step (faithful : program.Faithful) (sane : program.Sane entry c f) :
    Drive.Ensures (σ := σ) (c.step program) f (program.Stepped entry) := by
  cases sane with
  | @call target args _ _ _ context clean =>
    simp only [Config.step]
    cases named : Primitive.ofProc? target with
    | some which => exact perform_stepped named context clean
    | none =>
      exact Drive.Ensures.done (stepped_ofExcept clean
        (entered_safe faithful named context clean))
  | reenter saved clean =>
    simp only [Config.step]
    cases saved with
    | @retry which target slots frames named suspends links =>
      rw [ofProc?_procId]
      exact perform_stepped named ⟨target, .nil, links⟩ clean
    | linked links =>
      have notPrimitive := links
      cases notPrimitive with
      | cons id hosts _ _ _ _ _ =>
        rw [← id, hosts.notPrimitive]
        exact Drive.Ensures.done (stepped_ofExcept clean (reentered_safe links rfl rfl clean))
  | @run a live p callers outer _ sited context clean =>
    cases rest : a.rest with
    | nil =>
      simp only [Config.step, rest]
      exact Drive.Ensures.done (stepped_ofExcept clean
        (sited.afterTerminator rest context clean))
    | cons s more =>
      simp only [Config.step, rest]
      refine Drive.Ensures.bind (Drive.Ensures.keeping rfl clean fun text f' clean => ?_)
      exact Drive.Ensures.done (stepped_ofExcept clean
        (sited.afterStmt text rest context clean))
  | @completed completion target callers outer _ context clean =>
    cases callers with
    | nil =>
      cases outer with
      | none => exact Drive.Ensures.done clean
      | some frames => exact finish_completed (.linked context.links) clean
    | cons caller callers =>
      obtain ⟨bottom, stack, links⟩ := context
      exact Drive.Ensures.done (stepped_ofExcept clean
        (stack.afterCall links clean completion))
  | resumed saved clean => exact finish_completed saved clean
  | @suspended target callers outer _ context may saving =>
    cases callers with
    | nil => exact finish_suspended context.links saving
    | cons caller callers =>
      obtain ⟨bottom, stack, links⟩ := context
      exact suspendCaller_stepped stack links may saving

/-- A run of a sane machine comes to a proper end, if it ends. -/
theorem Sane.run_halts (faithful : program.Faithful) (fuel : Nat) (sane : program.Sane entry c f) :
    Drive.Ensures (σ := σ) (Config.run program fuel c) f (program.Halted entry) := by
  induction fuel generalizing c f with
  | zero => exact Drive.Ensures.diverge
  | succ fuel ih =>
    rw [Config.run_succ]
    refine Drive.Ensures.bind ((sane.step faithful).mono fun progress f' stepped => ?_)
    cases progress with
    | running c' => exact ih stepped
    | halted r => exact Drive.Ensures.done stepped

end Program

end Resumable
