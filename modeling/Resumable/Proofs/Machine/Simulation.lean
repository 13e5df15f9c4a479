import Resumable.Proofs.Machine.Matching
import Resumable.Proofs.Machine.Preservation

/-!
# The machine follows the interpretation

What the machine does on the woven program is what the interpretation does on the original
one, a step at a time.

Each part of a step has a lemma which says that the two results are alike: jumps and
exceptions (`Shadows.goto`, `Shadows.raise`), statements and terminators
(`Along.afterStmt`, `Along.afterTerminator`), and the beginning and the end of a call
(`Mirrors.entered`, `Awaits.afterCall`).

The machine takes some steps on its own.  It leaves its callers one by one, each of which
saves a frame (`Waits.unwound`), and enters a saved frame through the dispatcher and the
resume block, where the saved values are restored (`Parked.restored`) and the end of the
inner call is taken (`Parked.taken`).

`Matches.step` puts this together.
-/

namespace Resumable

namespace Liveness

variable {live : Liveness} {b : Block} {more : List Stmt} {dst : Option LocalId} {l : LocalId}

/-- Once the result of a call is stored, the rest of the block has what it needs. -/
theorem mem_or_awaited (mem : l ∈ live.before b more) : l ∈ dst ∨ live.Awaited b more dst l := by
  by_cases stored : l ∈ dst
  · exact Or.inl stored
  · exact Or.inr (Or.inl ⟨mem, stored⟩)

/-- What is needed after a statement, or by its handler, is live before it. -/
theorem Awaited.before {s : Stmt} (raises : s.canRaise = true) (defs : s.defs = dst.toList)
    (h : live.Awaited b more dst l) : l ∈ live.before b (s :: more) := by
  rw [before_cons, mem_stepBack, defs]
  rcases h with ⟨mem, other⟩ | raised
  · exact Or.inl ⟨mem, by simpa using other⟩
  · exact Or.inr (Or.inr ⟨raises, raised⟩)

theorem before_of_uses {s : Stmt} (mem : l ∈ s.uses) : l ∈ live.before b (s :: more) := by
  rw [before_cons, mem_stepBack]
  exact Or.inr (Or.inl mem)

end Liveness

namespace Program

variable {original program : Program} {live : Liveness} {a b : Activation} {c k : Config}
  {f : Fiber}

/-! ## Jumps -/

theorem Shadows.goto (h : program.Shadows live a b) {id : BlockId}
    (lt : id.index < a.proc.blocks.length)
    (agree : Agree a.proc.locals.length (· ∈ live.atStart id) a.locals b.locals)
    (waits : program.Waits a.proc.id c.callers (waiters k.callers k.outer))
    (clean : f.frames = []) : Alike (program.Matched · · f) (c.goto a id) (k.goto b id) := by
  obtain ⟨d, block, found, rfl⟩ := h.hosts.work.sound.block?_of_lt lt
  obtain ⟨d', found', follows⟩ := h.hosts.work.blocks d block
  rw [h.hosts.work.solves.atStart d block] at agree
  rw [goto_eq found, goto_eq found']
  refine ⟨0, .run ⟨⟨h.hosts, block, List.suffix_refl _⟩, ?_, follows, agree⟩ waits clean⟩
  exact List.mem_of_getElem? found'

theorem Shadows.raise (h : program.Shadows live a b) (handler : b.block.handler = a.block.handler)
    (agree : Agree a.proc.locals.length (· ∈ live.onRaise a.block) a.locals b.locals)
    (waits : program.Waits a.proc.id c.callers (waiters k.callers k.outer))
    (clean : f.frames = []) (v : Value) :
    Alike (program.Matched · · f) (c.raise a v) (k.raise b v) := by
  unfold Config.raise
  rw [handler]
  cases handler : a.block.handler with
  | none => exact ⟨5, .completed waits clean⟩
  | some target =>
    refine (agree.store target.bind v).bind ?_
    rintro - - ⟨l, l', rfl, rfl, agree⟩
    have shadows : program.Shadows live { a with locals := l } { b with locals := l' } :=
      ⟨h.hosts, h.block, h.suffix⟩
    refine shadows.goto ((h.hosts.work.sound.blocks _ h.block).handler target handler).1
      (agree.mono fun id mem => ?_) waits clean
    by_cases bound : id = target.bind
    · exact Or.inl bound
    · exact Or.inr (Liveness.mem_onRaise.2 ⟨target, handler, mem, bound⟩)

theorem Shadows.complete (h : program.Shadows live a b)
    (handler : b.block.handler = a.block.handler) {dst : Option LocalId}
    (agree : Agree a.proc.locals.length (live.Awaited a.block a.rest dst) a.locals b.locals)
    (waits : program.Waits a.proc.id c.callers (waiters k.callers k.outer))
    (clean : f.frames = [])
    (stored : ∀ l l', Agree a.proc.locals.length (· ∈ live.before a.block a.rest) l l' →
      program.Matched (c.running { a with locals := l }) (k.running { b with locals := l' }) f)
    (completion : Completion) :
    Alike (program.Matched · · f) (c.complete a dst completion)
      (k.complete b dst completion) := by
  cases completion with
  | exception v => exact h.raise handler (agree.mono fun _ => Or.inr) waits clean v
  | value v =>
    refine (agree.storeTo dst v).bind ?_
    rintro - - ⟨l, l', rfl, rfl, agree⟩
    exact stored l l' (agree.mono fun _ => Liveness.mem_or_awaited)

/-! ## Statements and terminators -/

theorem Along.complete {dst : Option LocalId}
    (h : program.Along live (live.Awaited a.block a.rest dst) a b)
    (waits : program.Waits a.proc.id c.callers (waiters k.callers k.outer))
    (clean : f.frames = []) (completion : Completion) :
    Alike (program.Matched · · f) (c.complete a dst completion)
      (k.complete b dst completion) := by
  refine h.toShadows.complete h.follows.handler_eq h.agree waits clean ?_ completion
  exact fun l l' agree =>
    ⟨0, .run ⟨⟨h.hosts, h.block, h.suffix⟩, h.stands, h.follows, agree⟩ waits clean⟩

theorem Along.afterStmt {s : Stmt} {more more' : List Stmt} (text : Value → String)
    (h : program.Along live (· ∈ live.before a.block a.rest) a b) (next : a.rest = s :: more)
    (next' : b.rest = s :: more')
    (waits : program.Waits a.proc.id c.callers (waiters k.callers k.outer))
    (clean : f.frames = []) :
    Alike (program.Matched · · f) (c.afterStmt text { a with rest := more } s)
      (k.afterStmt text { b with rest := more' } s) := by
  obtain ⟨⟨hosts, block, suffix⟩, stands, follows, agree⟩ := h
  rw [next] at suffix agree
  rw [next, next'] at follows
  obtain ⟨_, same, quiet, rest⟩ := follows.cons
  obtain ⟨-, rfl⟩ := List.cons.inj same
  have plain := plain_of_suffix hosts.work block suffix
  have reads : ∀ id ∈ s.uses, id ∈ live.before a.block (s :: more) :=
    fun id => Liveness.before_of_uses
  have shadows : program.Shadows live { a with rest := more } { b with rest := more' } :=
    ⟨hosts, block, (List.suffix_cons s more).trans suffix⟩
  cases s with
  | assign dst rvalue =>
    refine (Agree.compute (a := { a with rest := more }) (b := { b with rest := more' }) agree text
      reads).bind_eq fun completion => ?_
    have along : program.Along live (live.Awaited a.block more (some dst))
        { a with rest := more } { b with rest := more' } :=
      ⟨shadows, stands, rest, agree.mono fun _ needed => needed.before rfl rfl⟩
    exact Along.complete (a := { a with rest := more }) along waits clean completion
  | call dst func args =>
    refine (Agree.evaluateAll (a := { a with rest := more }) (b := { b with rest := more' }) agree
      reads).bind_eq fun values => ?_
    have along : program.Along live (live.Awaited a.block more dst)
        { a with rest := more } { b with rest := more' } :=
      ⟨shadows, stands, rest, agree.mono fun _ needed => needed.before rfl rfl⟩
    exact ⟨_, .call (.cons (.plain (quiet func rfl) along) waits) clean⟩
  | restore slots => cases plain
  | resume dst => cases plain

/-- The machine makes a call that may suspend at the end of its block. -/
theorem Along.afterSuspendCall {dst : Option LocalId} {func : FunctionRef} {args : List Operand}
    {state : StateId} {save : List LocalId} {next : BlockId} {more : List Stmt}
    (text : Value → String) (h : program.Along live (· ∈ live.before a.block a.rest) a b)
    (call : a.rest = .call dst func args :: more)
    (point : program.SuspendsAt live b.proc a.block more dst func.target state save next)
    (waits : program.Waits a.proc.id c.callers (waiters k.callers k.outer))
    (clean : f.frames = []) :
    Alike (program.Matched · · f)
      (c.afterStmt text { a with rest := more } (.call dst func args))
      (k.afterTerminator b (.suspendCall dst func args state save next)) := by
  obtain ⟨⟨hosts, block, suffix⟩, stands, follows, agree⟩ := h
  rw [call] at suffix agree
  have reads : ∀ id ∈ args.filterMap Operand.local?,
      id ∈ live.before a.block (.call dst func args :: more) :=
    fun id mem => Liveness.before_of_uses (s := .call dst func args) mem
  refine (Agree.evaluateAll (a := { a with rest := more }) agree reads).bind_eq fun values => ?_
  have parked : program.Parked live { a with rest := more } b dst func.target state save next :=
    ⟨⟨hosts, block, (List.suffix_cons _ more).trans suffix⟩, follows.handler_eq, point,
      agree.mono fun _ needed => needed.before rfl rfl⟩
  exact ⟨_, .call (.cons (.parked parked) waits) clean⟩

theorem Along.afterTerminator (h : program.Along live (· ∈ live.before a.block a.rest) a b)
    (last : a.rest = [])
    (waits : program.Waits a.proc.id c.callers (waiters k.callers k.outer))
    (clean : f.frames = []) :
    Alike (program.Matched · · f) (c.afterTerminator a a.block.terminator)
      (k.afterTerminator b a.block.terminator) := by
  obtain ⟨shadows, stands, follows, agree⟩ := h
  have sound := shadows.hosts.work.sound.blocks _ shadows.block
  rw [last, Liveness.before_nil] at agree
  have read : ∀ o : Operand, (∀ id ∈ o.local?, id ∈ a.block.terminator.uses) →
      Alike (· = ·) (a.evaluate o) (b.evaluate o) := fun o reads =>
    agree.evaluate fun id mem => Liveness.mem_beforeTerminator.2 (Or.inr (Or.inl (reads id mem)))
  have jump : a.block.terminator.def? = none → ∀ id ∈ a.block.terminator.successors,
      Alike (program.Matched · · f) (c.goto a id) (k.goto b id) := by
    intro none id mem
    refine shadows.goto (sound.edges id mem) (agree.mono fun l start => ?_) waits clean
    refine Liveness.mem_beforeTerminator.2 (Or.inl ⟨Liveness.mem_normalOut.2 ⟨id, mem, start⟩, ?_⟩)
    rw [none]
    exact nofun
  have plain := sound.isResumption_terminator shadows.hosts.work.unwoven
  have raised : a.block.terminator.canRaise = true →
      Agree a.proc.locals.length (· ∈ live.onRaise a.block) a.locals b.locals := fun raises =>
    agree.mono fun l mem => Liveness.mem_beforeTerminator.2 (Or.inr (Or.inr ⟨raises, mem⟩))
  generalize a.block.terminator = t at *
  cases t with
  | ret value =>
    cases value with
    | none => exact ⟨5, .completed waits clean⟩
    | some o =>
      refine (read _ (by simp [Terminator.uses])).bind_eq fun v => ?_
      exact ⟨5, .completed waits clean⟩
  | goto target => exact jump rfl target List.mem_cons_self
  | branch cond thenBlock elseBlock =>
    refine (read _ (by simp [Terminator.uses])).bind_eq fun v => ?_
    cases v with
    | bool taken =>
      refine jump rfl _ ?_
      cases taken <;> simp [Terminator.successors]
    | _ => trivial
  | switch value cases fallback =>
    refine (read _ (by simp [Terminator.uses])).bind_eq fun v => ?_
    cases v with
    | int n => exact jump rfl _ (switchTarget_mem n cases fallback)
    | _ => trivial
  | throw value =>
    refine (read _ (by simp [Terminator.uses])).bind_eq fun v => ?_
    exact shadows.raise follows.handler_eq (raised rfl) waits clean v
  | unreachable => trivial
  | dispatch fresh states => cases plain
  | suspendCall dst func args state save next => cases plain

/-! ## Calls -/

/-- A call begins at the entry of the original procedure, or at the dispatcher that leads
there. -/
theorem Hosts.atEntry {p w : Procedure} (hosts : program.Hosts live p w) {locals : List Value}
    (length : locals.length = p.locals.length)
    (waits : program.Waits p.id c.callers (waiters k.callers k.outer)) (clean : f.frames = []) :
    Alike (program.Matched · · f)
      (Activation.atBlock p locals none p.entryBlock >>= fun a => .ok (c.running a))
      (Activation.atBlock w locals none w.entryBlock >>= fun b => .ok (k.running b)) := by
  obtain ⟨b, block, here, id⟩ := hosts.work.sound.block?_of_lt hosts.work.sound.entry
  obtain ⟨d, found, follows⟩ := hosts.work.blocks b block
  have agree : Agree p.locals.length (· ∈ live.before b b.statements) locals locals :=
    ⟨length, length, fun _ _ => rfl⟩
  unfold Activation.atBlock
  rw [here]
  rcases hosts.work.entry with ⟨-, entry⟩ | ⟨-, states, entry⟩
  · rw [entry, ← id, found]
    refine ⟨0, .run ⟨⟨hosts, block, List.suffix_refl _⟩, ?_, follows, agree⟩ waits clean⟩
    exact List.mem_of_getElem? found
  · rw [entry]
    rw [id] at found
    exact ⟨1, .jumping ⟨hosts, block, List.suffix_refl _⟩ rfl (fun _ => rfl) found follows agree
      waits clean⟩

theorem Hosts.fresh {p w : Procedure} (hosts : program.Hosts live p w) (args : List Value)
    (waits : program.Waits p.id c.callers (waiters k.callers k.outer)) (clean : f.frames = []) :
    Alike (program.Matched · · f)
      (Activation.fresh p args >>= fun a => .ok (c.running a))
      (Activation.fresh w args >>= fun b => .ok (k.running b)) := by
  have blank : Activation.blank w = Activation.blank p := by
    unfold Activation.blank
    rw [hosts.work.locals]
  unfold Activation.fresh
  rw [hosts.work.params, blank, hosts.work.id]
  split
  · trivial
  · have length := Activation.safe_storeAllIn p.id (Activation.blank p)
      ((p.params.map (·.id)).zip args)
    cases stored : Activation.storeAllIn p.id (Activation.blank p)
        ((p.params.map (·.id)).zip args) with
    | error fault => trivial
    | ok locals =>
      rw [stored] at length
      exact hosts.atEntry (length.trans List.length_replicate) waits clean

theorem Mirrors.entered (mirrors : original.Mirrors program) {target : ProcId}
    {args : List Value} (notPrimitive : Primitive.ofProc? target = none)
    (waits : program.Waits target c.callers (waiters k.callers k.outer))
    (clean : f.frames = []) :
    Alike (program.Matched · · f) (c.entered original target args)
      (k.entered program target args) := by
  unfold Config.entered
  cases look : original.procedure? target with
  | none =>
    rw [mirrors.unknown target look]
    trivial
  | some p =>
    obtain ⟨w, found, body, counterpart⟩ := mirrors.known target p look
    obtain rfl := id_of_procedure? look
    simp only [found, body]
    cases hasBody : p.hasBody with
    | false => trivial
    | true =>
      obtain ⟨live, work⟩ := counterpart hasBody
      have hosts : program.Hosts live p w :=
        ⟨work, by rw [work.id, found], by rw [work.id, notPrimitive]⟩
      exact hosts.fresh args waits clean

/-- A caller goes on with the end of its call. -/
theorem Awaits.afterCall {target : ProcId} {caller caller' : Caller}
    (h : program.Awaits target caller (.caller caller'))
    (waits : program.Waits caller.activation.proc.id c.callers (waiters k.callers k.outer))
    (clean : f.frames = []) (completion : Completion) :
    Alike (program.Matched · · f) (c.afterCall caller completion)
      (k.afterCall caller' completion) := by
  cases h with
  | plain quiet along => exact along.complete waits clean completion
  | @parked live a b dst state save next stands =>
    cases completion with
    | exception v =>
      exact stands.toShadows.raise stands.handler (stands.agree.mono fun _ => Or.inr) waits clean v
    | value v =>
      obtain ⟨d, found, follows⟩ := stands.point.continues
      refine (stands.agree.storeTo dst v).bind ?_
      rintro - - ⟨l, l', rfl, rfl, agree⟩
      rw [goto_eq (a := { b with locals := l' }) found]
      refine ⟨0, .run ⟨⟨stands.hosts, stands.block, stands.suffix⟩, ?_, follows,
        agree.mono fun _ => Liveness.mem_or_awaited⟩ waits clean⟩
      exact List.mem_of_getElem? found

/-! ## Entering a saved frame -/

/-- The frame of a caller is entered at the dispatcher. -/
theorem Waits.reentered {target : ProcId} {frame : Frame} {completion : Completion}
    (waits : program.Waits target c.callers (.frame frame :: waiters k.callers k.outer))
    (delivers : c.focus = .deliver (.completed completion)) (clean : f.frames = []) :
    Primitive.ofProc? frame.proc = none ∧
      ∃ next, k.reentered program frame completion = .ok next ∧ program.Matches 3 c next f := by
  obtain ⟨focus, callers, outer⟩ := c
  dsimp only at waits delivers
  subst delivers
  cases waits with
  | cons head rest =>
    cases head with
    | @saved live a b dst state save next slots parked saved =>
      refine ⟨parked.hosts.notPrimitive, ?_⟩
      obtain ⟨old, states, resume, entry, arm, found⟩ := parked.point.resumes.taken
      unfold Config.reentered Activation.resumed Activation.atBlock
      simp only [parked.hosts.found, parked.point.resumes.woven, if_true, entry]
      exact ⟨_, rfl, .dispatching parked saved entry rest clean⟩

theorem Parked.dispatched {dst : Option LocalId} {target : ProcId} {state : StateId}
    {save : List LocalId} {next : BlockId} {slots : List Value} {completion : Completion}
    {entry : Block} (parked : program.Parked live a b dst target state save next)
    (found : b.proc.block? b.proc.entryBlock = some entry) :
    ∃ resume, k.afterTerminator ⟨b.proc, Activation.blank b.proc,
        some ⟨state, some slots, some completion⟩, entry, []⟩ entry.terminator =
      .ok (k.running ⟨b.proc, Activation.blank b.proc,
        some ⟨state, some slots, some completion⟩, a.block.resumption resume save dst next,
        [.restore save, .resume dst]⟩) := by
  obtain ⟨old, states, resume, here, arm, taken⟩ := parked.point.resumes.taken
  rw [found, Option.some.injEq] at here
  subst here
  refine ⟨resume, ?_⟩
  show Except.bind (Activation.dispatch _ old _) _ = _
  rw [Activation.dispatch_eq rfl arm]
  exact goto_eq taken

/-- The saved values agree with those that the interpretation still has. -/
theorem Parked.restored {dst : Option LocalId} {target : ProcId} {state : StateId}
    {save : List LocalId} {next : BlockId} {slots : List Value} {resumption : Option Resumption}
    {block : Block} {rest : List Stmt}
    (parked : program.Parked live a b dst target state save next)
    (saved : b.save save = .ok slots) (handler : block.handler = a.block.handler) :
    ∃ locals, Activation.storeAllIn b.proc.id (Activation.blank b.proc) (save.zip slots) =
        .ok locals ∧
      program.Parked live a ⟨b.proc, locals, resumption, block, rest⟩ dst target state save
        next := by
  obtain ⟨shadows, -, point, agree⟩ := parked
  have blank : Agree a.proc.locals.length (fun _ => False) (Activation.blank b.proc) b.locals :=
    ⟨by simp [Activation.blank, shadows.hosts.work.locals], agree.right, fun _ => False.elim⟩
  obtain ⟨locals, stored, same⟩ := blank.storeAllIn b.proc.id saved
  refine ⟨locals, stored, ⟨shadows.hosts, shadows.block, shadows.suffix⟩, handler, point, ?_⟩
  refine agree.trans (same.symm.mono fun id needed => Or.inl (point.needed id needed))

/-- The end of the inner call is taken. -/
theorem Parked.taken {dst : Option LocalId} {target : ProcId} {state : StateId}
    {save : List LocalId} {next resume : BlockId} {locals : List Value} {w : Procedure}
    {r : Option Resumption}
    (parked : program.Parked live a ⟨w, locals, r, a.block.resumption resume save dst next, []⟩
      dst target state save next)
    (waits : program.Waits a.proc.id c.callers (waiters k.callers k.outer))
    (clean : f.frames = []) (completion : Completion) :
    Alike (program.Matched · · f) (c.complete a dst completion)
      (k.complete ⟨w, locals, r, a.block.resumption resume save dst next, []⟩ dst
        completion) := by
  obtain ⟨d, found, follows⟩ := parked.point.continues
  refine parked.toShadows.complete parked.handler parked.agree waits clean ?_ completion
  exact fun l l' agree => ⟨1, .jumping ⟨parked.hosts, parked.block, parked.suffix⟩ rfl
    (fun _ => rfl) found follows agree waits clean⟩

/-! ## Leaving the callers -/

/-- The innermost caller saves a frame. -/
theorem Waits.unwound {target : ProcId} {callers : List Caller} {caller : Caller}
    {frames : List Frame} {waiting : List Waiter}
    (waits : program.Waits target callers (frames.map .frame ++ .caller caller :: waiting))
    (may : program.MaySuspend target) :
    ∃ dst state save next slots, caller.awaiting = .resumable dst state save next ∧
      caller.activation.save save = .ok slots ∧
      program.Waits target callers
        ((frames ++ [(⟨caller.activation.proc.id, state, slots⟩ : Frame)]).map .frame ++
          waiting) := by
  induction frames generalizing target callers with
  | nil =>
    cases waits with
    | cons head rest =>
      cases head with
      | plain quiet along => exact absurd may quiet
      | @parked live a b dst state save next parked =>
        obtain ⟨slots, saved, -⟩ : ∃ slots, b.save save = .ok slots ∧
            slots.length = save.length := by
          refine b.exists_save fun l mem => ?_
          rw [parked.agree.right, ← parked.hosts.work.locals]
          exact Procedure.lt_of_declares (parked.point.resumes.declared l mem)
        exact ⟨dst, state, save, next, slots, rfl, saved, .cons (.saved parked saved) rest⟩
  | cons frame frames ih =>
    cases waits with
    | cons head rest =>
      cases head with
      | @saved live a b dst state save next slots parked saved =>
        have inner : program.MaySuspend a.proc.id :=
          parked.hosts.work.id ▸ parked.point.maySuspend parked.hosts
        obtain ⟨dst', state', save', next', slots', awaiting, saved', rest⟩ := ih rest inner
        exact ⟨dst', state', save', next', slots', awaiting, saved',
          .cons (.saved parked saved) rest⟩

/-! ## Steps -/

variable {σ : Type} {m : σ} {i : Interpretation} {rank : Nat}

theorem Advances.ofExcept {x y : Except MachineFault Config}
    (alike : Alike (program.Matched · · f) x y)
    (stepped : i.step original = Interpretation.ofExcept i.commons x) :
    Advances original program i rank m (.finished (.ofExcept y), ⟨i.commons, f, m⟩) := by
  cases x with
  | error fault =>
    cases y with
    | error fault' => exact .ended stepped .faulted
    | ok k => exact alike.elim
  | ok c =>
    cases y with
    | error fault => exact alike.elim
    | ok k => exact .step (j := ⟨c, i.commons⟩) stepped alike

/-- A call of a primitive. -/
theorem Waits.perform {which : Primitive} {target : ProcId} {args : List Value}
    {callers callers' : List Caller} {outer outer' : Option (List Frame)} {commons : Commons}
    (named : Primitive.ofProc? target = some which)
    (waits : program.Waits target callers (waiters callers' outer')) (clean : f.frames = []) :
    let i : Interpretation := ⟨⟨.call target args, callers, outer⟩, commons⟩
    i.step original = .blocked ∨ Advances original program i (callers'.length + 1) m
      (((⟨.call target args, callers', outer'⟩ : Config).perform which args false).run
        ⟨commons, f, m⟩) := by
  intro i
  have step : i.step original = i.perform which args := by
    simp only [Interpretation.step, i, named]
  cases which with
  | print => exact Or.inr (.step step ⟨5, .completed waits clean⟩)
  | getNb =>
    right
    cases box : Primitive.mailboxArg? args with
    | none =>
      simp only [Interpretation.perform, box] at step
      simp only [Config.perform, Primitive.perform, box]
      exact .ended step .faulted
    | some box' =>
      simp only [Interpretation.perform, box] at step
      simp only [Config.perform, Primitive.perform, box]
      exact .step step ⟨5, .completed waits clean⟩
  | putNb =>
    right
    rcases args with _ | ⟨box, _ | ⟨message, more⟩⟩
    · exact .ended step .faulted
    · cases box <;> exact .ended step .faulted
    · cases box with
      | mailbox box => exact .step step ⟨5, .completed waits clean⟩
      | _ => exact .ended step .faulted
  | yield =>
    right
    have held : f.frames ++ [yieldFrame] = [yieldFrame] ++ [] := by
      rw [clean]
      rfl
    cases args with
    | nil => exact .stutter (Nat.lt_succ_self _) (.suspended named .yield held waits)
    | cons v args => exact .stutter (Nat.lt_succ_self _) (.suspended named .yield held waits)
  | exit => exact Or.inr (.stutter (Nat.lt_succ_self _) (.suspended named .exit clean waits))
  | errorExit =>
    exact Or.inr (.stutter (Nat.lt_succ_self _) (.suspended named .errorExit clean waits))
  | get => exact Or.inl step
  | put => exact Or.inl step
  | sleep => exact Or.inl step

theorem Along.step {callers callers' : List Caller} {outer outer' : Option (List Frame)}
    {commons : Commons} (along : program.Along live (· ∈ live.before a.block a.rest) a b)
    (waits : program.Waits a.proc.id callers (waiters callers' outer')) (clean : f.frames = []) :
    Advances original program ⟨⟨.run a, callers, outer⟩, commons⟩ rank m
      (((⟨.run b, callers', outer'⟩ : Config).step program).run ⟨commons, f, m⟩) := by
  cases rest : b.rest with
  | cons s more' =>
    have follows := along.follows
    rw [rest] at follows
    obtain ⟨more, next, -⟩ := follows.cons
    simp only [Config.step, rest]
    refine .ofExcept (along.afterStmt (c := ⟨.run a, callers, outer⟩)
      (k := ⟨.run b, callers', outer'⟩) commons.valueText next rest waits clean) ?_
    simp only [Interpretation.step, next]
  | nil =>
    have follows := along.follows
    rw [rest] at follows
    simp only [Config.step, rest]
    rcases follows.nil along.stands with ⟨last, same⟩ |
      ⟨more, dst, func, args, state, save, next, call, last, point⟩
    · rw [same]
      refine .ofExcept (along.afterTerminator (c := ⟨.run a, callers, outer⟩)
        (k := ⟨.run b, callers', outer'⟩) last waits clean) ?_
      simp only [Interpretation.step, last]
    · rw [last]
      refine .ofExcept (along.afterSuspendCall (c := ⟨.run a, callers, outer⟩)
        (k := ⟨.run b, callers', outer'⟩) commons.valueText call point waits clean) ?_
      simp only [Interpretation.step, call]

/-- The end of a call goes to the innermost caller, to the next saved frame, or to the
driver. -/
theorem Waits.delivered {completion : Completion} {target : ProcId}
    {callers callers' : List Caller} {outer outer' : Option (List Frame)} {commons : Commons}
    (waits : program.Waits target callers (waiters callers' outer')) (clean : f.frames = []) :
    Advances original program ⟨⟨.deliver (.completed completion), callers, outer⟩, commons⟩ 5 m
      (((⟨.deliver (.completed completion), callers', outer'⟩ : Config).step program).run
        ⟨commons, f, m⟩) := by
  match callers', outer' with
  | caller' :: callers', outer' =>
    change program.Waits target callers (.caller caller' :: waiters callers' outer') at waits
    cases waits with
    | @cons _ caller _ callers _ head rest =>
      exact .ofExcept (head.afterCall (c := ⟨.deliver (.completed completion), callers, outer⟩)
        (k := ⟨.deliver (.completed completion), callers', outer'⟩) rest clean completion) rfl
  | [], none =>
    cases waits
    exact .ended rfl .completed
  | [], some [] =>
    cases waits
    exact .ended rfl .completed
  | [], some (frame :: frames) =>
    have rest : program.Waits target callers (.frame frame :: waiters [] (some frames)) := waits
    exact .stutter (by omega) (.reenter rest clean)

/-- All callers are left. -/
theorem Waits.left {which : Primitive} {target : ProcId} {args : List Value}
    {callers : List Caller} {outer : Option (List Frame)} {commons : Commons}
    {inner frames : List Frame} (named : Primitive.ofProc? target = some which)
    (leaves : Leaves args which inner f.reason) (held : f.frames = inner ++ frames)
    (waits : program.Waits target callers (frames.map .frame)) :
    Advances original program ⟨⟨.call target args, callers, outer⟩, commons⟩ rank m
      (.finished (.halted (.ok .suspended)), ⟨commons, f, m⟩) := by
  have step : Interpretation.step original ⟨⟨.call target args, callers, outer⟩, commons⟩ =
      Interpretation.perform ⟨⟨.call target args, callers, outer⟩, commons⟩ which args := by
    simp only [Interpretation.step, named]
  generalize paused : f.reason = reason at leaves
  cases leaves with
  | yield =>
    refine .yielded step paused (by rw [held]; exact List.cons_ne_nil _ _) fun f' clean => ?_
    rw [held]
    exact .resumed waits clean
  | exit => exact .ended step (by rw [paused]; exact .exited)
  | errorExit => exact .ended step (by rw [paused]; exact .exited)

theorem Waits.suspended {which : Primitive} {target : ProcId} {args : List Value}
    {callers callers' : List Caller} {outer outer' : Option (List Frame)} {commons : Commons}
    {inner frames : List Frame} (named : Primitive.ofProc? target = some which)
    (leaves : Leaves args which inner f.reason) (held : f.frames = inner ++ frames)
    (waits : program.Waits target callers (frames.map .frame ++ waiters callers' outer')) :
    Advances original program ⟨⟨.call target args, callers, outer⟩, commons⟩ callers'.length m
      (((⟨.deliver .suspended, callers', outer'⟩ : Config).step program).run ⟨commons, f, m⟩) := by
  match callers', outer' with
  | [], none =>
    rw [show waiters [] none = [] from rfl, List.append_nil] at waits
    exact waits.left named leaves held
  | [], some more =>
    rw [show waiters [] (some more) = more.map .frame from rfl, ← List.map_append] at waits
    refine Waits.left (f := f.unwindRest more) named leaves ?_ waits
    show f.frames ++ more = inner ++ (frames ++ more)
    rw [held, List.append_assoc]
  | caller :: callers', outer' =>
    change program.Waits target callers (_ ++ .caller caller :: waiters callers' outer') at waits
    obtain ⟨dst, state, save, next, slots, awaiting, saved, rest⟩ :=
      waits.unwound (.primitive named leaves.suspends)
    simp only [Config.step, Config.suspendCaller, awaiting, saved]
    refine .stutter (Nat.lt_succ_self _) (.suspended named leaves ?_ rest)
    show f.frames ++ _ = _
    rw [held, List.append_assoc]

/-- Every step of a machine that does the work of an interpretation is a part of the next
step of the interpretation, unless that is blocked. -/
theorem Matches.step (mirrors : original.Mirrors program)
    (h : program.Matches rank i.config k f) :
    i.step original = .blocked ∨
      Advances original program i rank m ((k.step program).run ⟨i.commons, f, m⟩) := by
  obtain ⟨c, commons⟩ := i
  cases h with
  | @call target args callers callers' outer outer' _ waits clean =>
    cases named : Primitive.ofProc? target with
    | some which =>
      simp only [Config.step, named]
      exact waits.perform named clean
    | none =>
      simp only [Config.step, named]
      refine Or.inr (.ofExcept (mirrors.entered (c := ⟨.call target args, callers, outer⟩)
        (k := ⟨.call target args, callers', outer'⟩) named waits clean) ?_)
      simp only [Interpretation.step, named]
  | run along waits clean => exact Or.inr (along.step waits clean)
  | jumping shadows last jump found follows agree waits clean =>
    simp only [Config.step, last]
    rw [jump, goto_eq found]
    exact Or.inr (.stutter (by omega)
      (.run ⟨⟨shadows.hosts, shadows.block, shadows.suffix⟩, List.mem_of_getElem? found, follows,
        agree⟩ waits clean))
  | completed waits clean => exact Or.inr (waits.delivered clean)
  | @reenter completion target frame callers callers' outer outer' _ waits clean =>
    obtain ⟨notPrimitive, next, reentered, restart⟩ :=
      Waits.reentered (c := ⟨.deliver (.completed completion), callers, outer⟩)
        (k := ⟨.reenter frame completion, callers', outer'⟩) waits rfl clean
    simp only [Config.step, notPrimitive, reentered]
    exact Or.inr (.stutter (by omega) restart)
  | @dispatching completion live a b c target dst state save next slots callers callers' outer
      outer' _ parked saved entry waits clean =>
    obtain ⟨resume, dispatched⟩ := parked.dispatched (k := ⟨.run ⟨b.proc,
      Activation.blank b.proc, some ⟨state, some slots, some completion⟩, c, []⟩, callers',
      outer'⟩) entry
    show Or _ (Advances _ _ _ _ _
      (.finished (.ofExcept (Config.afterTerminator _ _ c.terminator)), _))
    rw [dispatched]
    exact Or.inr (.stutter (by omega) (.restoring parked saved waits clean))
  | @restoring completion live a b target dst state save next resume slots callers callers' outer
      outer' _ parked saved waits clean =>
    obtain ⟨locals, stored, restored⟩ : ∃ locals, Activation.storeAllIn b.proc.id
        (Activation.blank b.proc) (save.zip slots) = .ok locals ∧
        program.Parked live a ⟨b.proc, locals, some ⟨state, none, some completion⟩,
          a.block.resumption resume save dst next, [.resume dst]⟩ dst target state save next :=
      parked.restored saved rfl
    show Or _ (Advances _ _ _ _ _
      (.finished (.ofExcept (Except.bind (Activation.restore _ save) _)), _))
    rw [Activation.restore_eq rfl (Activation.length_save saved), stored]
    exact Or.inr (.stutter (by omega) (.resuming restored waits clean))
  | @resuming completion live a w locals target dst state save next resume callers callers' outer
      outer' _ parked waits clean =>
    obtain ⟨⟨hosts, block, suffix⟩, handler, point, agree⟩ := parked
    have parked : program.Parked live a ⟨w, locals, some ⟨state, none, none⟩,
        a.block.resumption resume save dst next, []⟩ dst target state save next :=
      ⟨⟨hosts, block, suffix⟩, handler, point, agree⟩
    exact Or.inr (.ofExcept (parked.taken
      (c := ⟨.deliver (.completed completion), callers, outer⟩) waits clean completion) rfl)
  | suspended named leaves held waits => exact Or.inr (waits.suspended named leaves held)
  | resumed waits clean => exact Or.inr (.stutter (by omega) (.retrying waits clean))
  | retrying waits clean =>
    have named : Primitive.ofProc? yieldFrame.proc = some .yield := ofProc?_procId .yield
    simp only [Config.step, named]
    exact Or.inr (.stutter (by omega) (.completed waits clean))

end Program

end Resumable
