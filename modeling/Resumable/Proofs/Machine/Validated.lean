import Resumable.Proofs.Machine.Finished

/-!
# Checked code finds its locals and blocks

A procedure that passes the check of its graph reads and writes declared locals only, and
goes to blocks that exist.  So a machine on such procedures does not end with a fault that a
local or a block is missing (`Machine.Driven.not_isMissing`), however it is driven.

`Program.Vets` is the invariant.  Every activation has a value for each local of its
procedure and stands in one of its blocks; a caller can store the result of its call, save
what it has to, and go on.  Saved frames belong to procedures with a body, since only those
have activations.

The check does not look at parameters.  Here they are required to be among the locals
(`Procedure.HoldsParams`); without this the machine fails to store the arguments of a call
(`Machine.no_local_for_param`).
-/

namespace Resumable

namespace MachineFault

/-- The fault says that a local or a block does not exist. -/
def isMissing : MachineFault → Bool
  | .noLocal .. => true
  | .noBlock .. => true
  | _ => false

/-- The value is of some kind, or the fault is not that something is missing. -/
def Finds {α : Type} (post : α → Prop) : Except MachineFault α → Prop
  | .ok a => post a
  | .error fault => fault.isMissing = false

variable {α β : Type}

theorem Finds.bind {x : Except MachineFault α} {f : α → Except MachineFault β} {post : β → Prop}
    (h : Finds (fun a => Finds post (f a)) x) : Finds post (x >>= f) := by
  cases x with
  | error fault => exact h
  | ok a => exact h

theorem Finds.mono {x : Except MachineFault α} {post more : α → Prop} (h : Finds post x)
    (weaker : ∀ a, post a → more a) : Finds more x := by
  cases x with
  | error fault => exact h
  | ok a => exact weaker a h

end MachineFault

open MachineFault (Finds)

/-- A value is stored for every parameter: its number is that of a local. -/
def Procedure.HoldsParams (p : Procedure) : Prop :=
  ∀ l ∈ p.params, l.id.index < p.locals.length

instance (p : Procedure) : Decidable p.HoldsParams :=
  inferInstanceAs (Decidable (∀ l ∈ p.params, _))

/-- Every procedure of a program has passed the check and has locals for its parameters. -/
structure Program.Checked (program : Program) : Prop where
  valid : ∀ p ∈ program.procedures, p.validate = .ok ()
  params : ∀ p ∈ program.procedures, p.HoldsParams

/-! ## Locals of an activation -/

namespace Activation

variable {a : Activation}

theorem finds_evaluate {o : Operand} (declared : ∀ l ∈ o.local?, l.index < a.locals.length) :
    Finds (fun _ => True) (a.evaluate o) := by
  cases o with
  | const c => trivial
  | «local» id =>
    have found : a.evaluate (.local id) = .ok _ := a.read_eq (declared id rfl)
    rw [found]
    trivial

theorem finds_evaluateAll {operands : List Operand}
    (declared : ∀ l ∈ operands.filterMap Operand.local?, l.index < a.locals.length) :
    Finds (fun _ => True) (a.evaluateAll operands) := by
  induction operands with
  | nil => trivial
  | cons o more ih =>
    have first : ∀ l ∈ o.local?, l.index < a.locals.length := fun l reads =>
      declared l (List.mem_filterMap.2 ⟨o, List.mem_cons_self, reads⟩)
    have others : ∀ l ∈ more.filterMap Operand.local?, l.index < a.locals.length := by
      intro l mem
      obtain ⟨operand, there, reads⟩ := List.mem_filterMap.1 mem
      exact declared l (List.mem_filterMap.2 ⟨operand, List.mem_cons_of_mem _ there, reads⟩)
    refine ((finds_evaluate first).mono fun _ _ => ?_).bind
    exact ((ih others).mono fun _ _ => trivial).bind

theorem finds_compute (text : Value → String) {rvalue : RValue}
    (declared : ∀ l ∈ rvalue.operands.filterMap Operand.local?, l.index < a.locals.length) :
    Finds (fun _ => True) (a.compute text rvalue) := by
  have each : ∀ o ∈ rvalue.operands, Finds (fun _ => True) (a.evaluate o) := fun o mem =>
    finds_evaluate fun l reads => declared l (List.mem_filterMap.2 ⟨o, mem, reads⟩)
  cases rvalue with
  | use o => exact ((each o List.mem_cons_self).mono fun _ _ => trivial).bind
  | binary op l r =>
    refine ((each l List.mem_cons_self).mono fun left _ => ?_).bind
    refine ((each r (List.mem_cons_of_mem _ List.mem_cons_self)).mono fun right _ => ?_).bind
    unfold BinOp.apply
    split <;> trivial
  | unary op o =>
    refine ((each o List.mem_cons_self).mono fun v _ => ?_).bind
    unfold UnaryOp.apply
    split <;> trivial

/-- Values are stored in locals that exist, and their number stays. -/
theorem finds_storeAllIn (proc : ProcId) {locals : List Value} {items : List (LocalId × Value)}
    (declared : ∀ item ∈ items, item.1.index < locals.length) :
    Finds (fun l => l.length = locals.length) (storeAllIn proc locals items) := by
  induction items generalizing locals with
  | nil => exact rfl
  | cons item items ih =>
    rw [List.forall_mem_cons] at declared
    have stored : storeIn proc locals item.1 item.2 = .ok (locals.set item.1.index item.2) :=
      if_pos declared.1
    rw [storeAllIn]
    refine Finds.bind ?_
    rw [stored]
    refine (ih fun other mem => ?_).mono fun l same => same.trans List.length_set
    rw [List.length_set]
    exact declared.2 other mem

theorem finds_storeTo {dst : Option LocalId} (v : Value)
    (declared : ∀ l ∈ dst, l.index < a.locals.length) :
    Finds (fun b => ∃ locals, locals.length = a.locals.length ∧ b = { a with locals })
      (a.storeTo dst v) := by
  cases dst with
  | none => exact ⟨a.locals, rfl, rfl⟩
  | some id =>
    have stored : storeIn a.proc.id a.locals id v = .ok (a.locals.set id.index v) :=
      if_pos (declared id rfl)
    refine Finds.bind ?_
    rw [stored]
    exact ⟨_, List.length_set, rfl⟩

end Activation

/-! ## The invariant -/

/-- What a caller does with the end of its call is possible. -/
def Awaiting.Possible (a : Activation) : Awaiting → Prop
  | .plain _ dst => ∀ l ∈ dst, a.proc.declares l = true
  | .resumable dst _ save next =>
    (∀ l ∈ dst, a.proc.declares l = true) ∧ (∀ l ∈ save, a.proc.declares l = true) ∧
      next.index < a.proc.blocks.length

namespace Program

variable {program : Program} {c : Config} {a : Activation} {f : Fiber}

/-- Frames of the primitives and of procedures with a body. -/
def Owns (program : Program) (frame : Frame) : Prop :=
  (Primitive.ofProc? frame.proc).isSome = true ∨
    ∃ p, program.procedure? frame.proc = some p ∧ p.hasBody = true

/-- An activation of a procedure of the program. -/
structure Keeps (program : Program) (a : Activation) : Prop where
  found : program.procedure? a.proc.id = some a.proc
  body : a.proc.hasBody = true
  sound : a.proc.Sound
  locals : a.locals.length = a.proc.locals.length
  block : a.block ∈ a.proc.blocks
  rest : a.rest ⊆ a.block.statements

/-- What the machine comes back to after the activation at work. -/
structure Surrounds (program : Program) (c : Config) : Prop where
  callers : ∀ caller ∈ c.callers,
    program.Keeps caller.activation ∧ caller.awaiting.Possible caller.activation
  outer : ∀ frames ∈ c.outer, ∀ frame ∈ frames, program.Owns frame

/-- What the machine does next is possible. -/
def Suits (program : Program) : Focus → Prop
  | .run a => program.Keeps a
  | .reenter frame _ => program.Owns frame
  | .call .. => True
  | .deliver _ => True

/-- The machine does not run into a missing local or block. -/
structure Vets (program : Program) (c : Config) : Prop where
  surrounds : program.Surrounds c
  suits : program.Suits c.focus

/-! ## Jumps -/

theorem Surrounds.running (around : program.Surrounds c) (keeps : program.Keeps a) :
    program.Vets (c.running a) :=
  ⟨⟨around.callers, around.outer⟩, keeps⟩

theorem Surrounds.delivering (around : program.Surrounds c) (outcome : Outcome) :
    program.Vets (c.delivering outcome) :=
  ⟨⟨around.callers, around.outer⟩, trivial⟩

theorem Surrounds.calling (around : program.Surrounds c) (keeps : program.Keeps a)
    {awaiting : Awaiting} (possible : awaiting.Possible a) (target : ProcId)
    (args : List Value) : program.Vets (c.calling a awaiting target args) :=
  ⟨⟨List.forall_mem_cons.2 ⟨⟨keeps, possible⟩, around.callers⟩, around.outer⟩, trivial⟩

namespace Keeps

theorem index_lt (keeps : program.Keeps a) {l : LocalId} (declared : a.proc.declares l = true) :
    l.index < a.locals.length := by
  rw [keeps.locals]
  exact Procedure.lt_of_declares declared

theorem blockSound (keeps : program.Keeps a) : a.proc.BlockSound a.block :=
  keeps.sound.blocks a.block keeps.block

theorem withLocals (keeps : program.Keeps a) {locals : List Value}
    (length : locals.length = a.locals.length) : program.Keeps { a with locals } :=
  ⟨keeps.found, keeps.body, keeps.sound, length.trans keeps.locals, keeps.block, keeps.rest⟩

variable (keeps : program.Keeps a) (around : program.Surrounds c)
include keeps around

theorem goto {id : BlockId} (lt : id.index < a.proc.blocks.length) :
    Finds program.Vets (c.goto a id) := by
  obtain ⟨b, mem, found, -⟩ := keeps.sound.block?_of_lt lt
  rw [goto_eq found]
  exact around.running
    ⟨keeps.found, keeps.body, keeps.sound, keeps.locals, mem, List.Subset.refl _⟩

theorem raise (v : Value) : Finds program.Vets (c.raise a v) := by
  unfold Config.raise
  cases handler : a.block.handler with
  | none => exact around.delivering _
  | some h =>
    obtain ⟨target, bind⟩ := keeps.blockSound.handler h handler
    have declared : ∀ l ∈ some h.bind, l.index < a.locals.length := by
      rintro l ⟨⟩
      exact keeps.index_lt bind
    refine ((Activation.finds_storeTo v declared).mono ?_).bind
    rintro - ⟨locals, length, rfl⟩
    exact (keeps.withLocals length).goto around target

theorem complete {dst : Option LocalId} (declared : ∀ l ∈ dst, a.proc.declares l = true)
    (completion : Completion) : Finds program.Vets (c.complete a dst completion) := by
  cases completion with
  | exception v => exact keeps.raise around v
  | value v =>
    refine ((Activation.finds_storeTo v fun l mem => keeps.index_lt (declared l mem)).mono ?_).bind
    rintro - ⟨locals, length, rfl⟩
    exact around.running (keeps.withLocals length)

end Keeps

/-! ## Statements and terminators -/

namespace Keeps

theorem restore (keeps : program.Keeps a) {slots : List LocalId}
    (declared : ∀ l ∈ slots, a.proc.declares l = true) :
    Finds program.Keeps (a.restore slots) := by
  unfold Activation.restore
  split
  · split
    · split
      · rfl
      · refine ((Activation.finds_storeAllIn _ fun item inside => ?_).mono ?_).bind
        · exact keeps.index_lt (declared item.1 (List.of_mem_zip inside).1)
        · intro locals length
          exact ⟨keeps.found, keeps.body, keeps.sound, length.trans keeps.locals, keeps.block,
            keeps.rest⟩
    · rfl
  · rfl

theorem takeCompletion (keeps : program.Keeps a) :
    Finds (fun taken => program.Keeps taken.2 ∧ taken.2.proc = a.proc) a.takeCompletion := by
  unfold Activation.takeCompletion
  split
  · split
    · exact ⟨⟨keeps.found, keeps.body, keeps.sound, keeps.locals, keeps.block, keeps.rest⟩, rfl⟩
    · rfl
  · rfl

theorem dispatch {fresh : BlockId} {states : List (StateId × BlockId)} :
    Finds (· ∈ fresh :: states.map Prod.snd) (a.dispatch fresh states) := by
  unfold Activation.dispatch
  split
  · exact List.mem_cons_self
  · split
    · rename_i found
      exact List.mem_cons_of_mem _ (List.mem_map_of_mem (List.mem_of_find?_eq_some found))
    · rfl

variable (keeps : program.Keeps a) (around : program.Surrounds c)
include keeps around

theorem afterStmt (text : Value → String) {s : Stmt} (mem : s ∈ a.block.statements) :
    Finds program.Vets (c.afterStmt text a s) := by
  have declared := keeps.blockSound.locals s mem
  cases s with
  | assign dst rvalue =>
    refine ((Activation.finds_compute text fun l reads => ?_).mono fun completion _ => ?_).bind
    · exact keeps.index_lt (declared l (List.mem_append_right _ reads))
    · refine keeps.complete around (fun l same => ?_) completion
      cases same
      exact declared dst (List.mem_append_left _ List.mem_cons_self)
  | call dst func args =>
    refine ((Activation.finds_evaluateAll fun l reads => ?_).mono fun values _ => ?_).bind
    · exact keeps.index_lt (declared l (List.mem_append_right _ reads))
    · have possible : (Awaiting.plain func.target dst).Possible a := fun l mem =>
        declared l (List.mem_append_left _ (Option.mem_toList.2 mem))
      exact around.calling keeps possible _ _
  | restore slots =>
    refine Finds.bind ((keeps.restore fun l mem => ?_).mono fun b keeps => around.running keeps)
    exact declared l (List.mem_append_left _ mem)
  | resume dst =>
    refine Finds.bind (keeps.takeCompletion.mono fun taken next => ?_)
    refine next.1.complete around (fun l mem => ?_) _
    rw [next.2]
    exact declared l (List.mem_append_left _ (Option.mem_toList.2 mem))

theorem afterTerminator : Finds program.Vets (c.afterTerminator a a.block.terminator) := by
  have sound := keeps.blockSound
  obtain ⟨edges, -, -, -, -, declared⟩ := sound
  cases last : a.block.terminator with
  | ret value =>
    cases value with
    | none => exact around.delivering _
    | some o =>
      rw [last] at declared
      refine ((Activation.finds_evaluate fun l reads => ?_).mono fun v _ => ?_).bind
      · exact keeps.index_lt (declared l (by simpa [Terminator.uses] using Or.inr reads))
      · exact around.delivering _
  | goto target =>
    rw [last] at edges
    exact keeps.goto around (edges target List.mem_cons_self)
  | branch cond thenBlock elseBlock =>
    rw [last] at edges declared
    refine ((Activation.finds_evaluate fun l reads => ?_).mono fun v _ => ?_).bind
    · exact keeps.index_lt (declared l (by simpa [Terminator.uses] using Or.inr reads))
    · cases v with
      | bool b =>
        refine keeps.goto around (edges _ ?_)
        cases b <;> simp [Terminator.successors]
      | _ => rfl
  | switch value cases fallback =>
    rw [last] at edges declared
    refine ((Activation.finds_evaluate fun l reads => ?_).mono fun v _ => ?_).bind
    · exact keeps.index_lt (declared l (by simpa [Terminator.uses] using Or.inr reads))
    · cases v with
      | int n => exact keeps.goto around (edges _ (switchTarget_mem n cases fallback))
      | _ => rfl
  | throw value =>
    rw [last] at declared
    refine ((Activation.finds_evaluate fun l reads => ?_).mono fun v _ => ?_).bind
    · exact keeps.index_lt (declared l (by simpa [Terminator.uses] using Or.inr reads))
    · exact keeps.raise around v
  | unreachable => rfl
  | dispatch fresh states =>
    rw [last] at edges
    exact Finds.bind (dispatch.mono fun id mem => keeps.goto around (edges id mem))
  | suspendCall dst func args state save next =>
    rw [last] at edges declared
    have uses : ∀ l ∈ args.filterMap Operand.local? ++ save, a.proc.declares l = true :=
      fun l mem => declared l (List.mem_append_right _ mem)
    refine ((Activation.finds_evaluateAll fun l reads => ?_).mono fun values _ => ?_).bind
    · exact keeps.index_lt (uses l (List.mem_append_left _ reads))
    · have possible : (Awaiting.resumable dst state save next).Possible a :=
        ⟨fun l mem => declared l (List.mem_append_left _ (Option.mem_toList.2 mem)),
          fun l mem => uses l (List.mem_append_right _ mem), edges next List.mem_cons_self⟩
      exact around.calling keeps possible _ _

end Keeps

/-! ## Calls -/

/-- A caller goes on with the end of its call. -/
theorem Surrounds.afterCall {caller : Caller} {callers : List Caller} {focus : Focus}
    {outer : Option (List Frame)}
    (around : program.Surrounds ⟨focus, caller :: callers, outer⟩) (completion : Completion) :
    Finds program.Vets ((⟨focus, callers, outer⟩ : Config).afterCall caller completion) := by
  obtain ⟨keeps, possible⟩ := around.callers caller List.mem_cons_self
  have rest : program.Surrounds ⟨focus, callers, outer⟩ :=
    ⟨fun other mem => around.callers other (List.mem_cons_of_mem _ mem), around.outer⟩
  unfold Config.afterCall
  cases awaiting : caller.awaiting with
  | plain callee dst =>
    rw [awaiting] at possible
    exact keeps.complete rest possible completion
  | resumable dst state save next =>
    rw [awaiting] at possible
    obtain ⟨stores, -, goes⟩ := possible
    cases completion with
    | exception v => exact keeps.raise rest v
    | value v =>
      refine ((Activation.finds_storeTo v fun l mem => keeps.index_lt (stores l mem)).mono ?_).bind
      rintro - ⟨locals, length, rfl⟩
      exact (keeps.withLocals length).goto rest goes

/-- A procedure of a checked program is found under its own name and is sound. -/
theorem Checked.of_procedure? (checked : program.Checked) {id : ProcId} {p : Procedure}
    (found : program.procedure? id = some p) (body : p.hasBody = true) :
    program.procedure? p.id = some p ∧ p.Sound ∧ p.HoldsParams := by
  have mem : p ∈ program.procedures := List.mem_reverse.1 (List.mem_of_find?_eq_some found)
  refine ⟨?_, Procedure.sound_of_validate (checked.valid p mem) body, checked.params p mem⟩
  rw [id_of_procedure? found]
  exact found

/-- An activation at the entry of a procedure. -/
theorem Checked.atEntry (checked : program.Checked) {id : ProcId} {p : Procedure}
    (found : program.procedure? id = some p) (body : p.hasBody = true) {locals : List Value}
    (length : locals.length = p.locals.length) (resumption : Option Resumption) :
    Finds program.Keeps (Activation.atBlock p locals resumption p.entryBlock) := by
  obtain ⟨own, sound, -⟩ := checked.of_procedure? found body
  obtain ⟨b, mem, here, -⟩ := sound.block?_of_lt sound.entry
  unfold Activation.atBlock
  rw [here]
  exact ⟨own, body, sound, length, mem, List.Subset.refl _⟩

theorem Checked.entered (checked : program.Checked) (around : program.Surrounds c)
    (target : ProcId) (args : List Value) : Finds program.Vets (c.entered program target args) := by
  unfold Config.entered
  split
  · rfl
  · rename_i p found
    split
    · rename_i body
      obtain ⟨-, -, params⟩ := checked.of_procedure? found body
      refine Finds.bind (Finds.mono ?_ fun a keeps => around.running keeps)
      unfold Activation.fresh
      split
      · rfl
      · have inside : ∀ item ∈ (p.params.map (·.id)).zip args,
            item.1.index < (Activation.blank p).length := by
          intro item mem
          obtain ⟨l, param, same⟩ := List.mem_map.1 (List.of_mem_zip mem).1
          rw [← same]
          simpa [Activation.blank] using params l param
        refine ((Activation.finds_storeAllIn p.id inside).mono fun locals length => ?_).bind
        exact checked.atEntry found body (by simpa [Activation.blank] using length) none
    · rfl

theorem Checked.reentered (checked : program.Checked) (around : program.Surrounds c)
    {frame : Frame} (owns : program.Owns frame) (other : Primitive.ofProc? frame.proc = none)
    (completion : Completion) :
    Finds program.Vets (c.reentered program frame completion) := by
  obtain ⟨p, found, body⟩ := owns.resolve_left (by simp [other])
  unfold Config.reentered
  rw [found]
  simp only
  split
  · refine Finds.bind (Finds.mono ?_ fun a keeps => around.running keeps)
    exact checked.atEntry found body (by simp [Activation.blank]) _
  · rfl

/-! ## Steps -/

/-- What holds after a step, with frames of the program on the fiber. -/
def Vetted (program : Program) : Progress → Fiber → Prop
  | .running c, f => program.Vets c ∧ ∀ frame ∈ f.frames, program.Owns frame
  | .halted r, f => Finds (fun _ => True) r ∧ ∀ frame ∈ f.frames, program.Owns frame

theorem owns_nil (program : Program) (clean : f.frames = []) :
    ∀ frame ∈ f.frames, program.Owns frame := by
  rw [clean]
  exact fun _ mem => absurd mem List.not_mem_nil

theorem vetted_ofExcept (clean : f.frames = []) {r : Except MachineFault Config}
    (finds : Finds program.Vets r) : program.Vetted (.ofExcept r) f := by
  cases r with
  | error fault => exact ⟨finds, program.owns_nil clean⟩
  | ok c => exact ⟨finds, program.owns_nil clean⟩

variable {σ : Type}

/-- The faults of a primitive concern its arguments. -/
theorem perform_finds (which : Primitive) (args : List Value) (again : Bool) :
    (which.perform args again : Drive σ _).Ends (Finds fun _ => True) := by
  have waits : ∀ (p : Primitive) (slots : List Value),
      (p.suspendWith slots : Drive σ _).Ends (Finds fun _ => True) := fun _ _ _ => trivial
  have alarmed : ∀ alarm : MailboxId,
      (Primitive.awaitAlarm alarm : Drive σ _).Ends (Finds fun _ => True) := by
    intro alarm
    refine .bind fun r => ?_
    cases r with
    | some message => trivial
    | none => exact waits _ _
  cases which with
  | print => exact .bind fun _ => trivial
  | getNb =>
    simp only [Primitive.perform]
    split
    · rfl
    · exact .bind fun _ => trivial
  | putNb =>
    simp only [Primitive.perform]
    split
    · exact .bind fun _ => trivial
    · rfl
  | yield =>
    simp only [Primitive.perform]
    split
    · trivial
    · cases args with
      | nil => exact .bind fun _ => waits _ _
      | cons v more => exact .bind fun _ => .bind fun _ => waits _ _
  | get =>
    simp only [Primitive.perform]
    split
    · rfl
    · refine .bind fun r => ?_
      cases r with
      | some message => trivial
      | none => exact waits _ _
  | put =>
    simp only [Primitive.perform]
    split
    · refine .bind fun r => ?_
      cases r with
      | true => trivial
      | false => exact waits _ _
    · rfl
  | sleep =>
    simp only [Primitive.perform]
    split
    · split
      · rfl
      · exact alarmed _
    · split
      · rfl
      · exact .bind fun alarm => .bind fun _ => alarmed alarm
  | exit => exact .bind fun _ => trivial
  | errorExit => exact .bind fun _ => trivial

theorem Surrounds.perform (around : program.Surrounds c) (which : Primitive) (args : List Value)
    (again : Bool) (clean : f.frames = []) :
    Drive.Ensures (σ := σ) (c.perform which args again) f program.Vetted := by
  refine .bind (((perform_ensures which args again clean).and (perform_finds which args again)).mono
    fun r f' ⟨performed, finds⟩ => ?_)
  apply Drive.Ensures.done
  rcases r with fault | completion | -
  · exact ⟨finds, program.owns_nil performed.1⟩
  · exact ⟨around.delivering _, program.owns_nil performed⟩
  · refine ⟨around.delivering _, ?_⟩
    rcases performed.2 with ⟨slots, saved⟩ | ⟨clean, -⟩
    · rw [saved]
      exact List.forall_mem_singleton.2 (Or.inl (by simp [ofProc?_procId]))
    · exact program.owns_nil clean

/-- A caller that is left can save what it has to. -/
theorem Surrounds.suspendCaller {caller : Caller} {callers : List Caller} {focus : Focus}
    {outer : Option (List Frame)} (around : program.Surrounds ⟨focus, caller :: callers, outer⟩)
    (frames : ∀ frame ∈ f.frames, program.Owns frame) :
    Drive.Ensures (σ := σ) ((⟨focus, callers, outer⟩ : Config).suspendCaller caller) f
      program.Vetted := by
  obtain ⟨keeps, possible⟩ := around.callers caller List.mem_cons_self
  have rest : program.Surrounds ⟨focus, callers, outer⟩ :=
    ⟨fun other mem => around.callers other (List.mem_cons_of_mem _ mem), around.outer⟩
  cases awaiting : caller.awaiting with
  | plain callee dst =>
    simp only [Config.suspendCaller, awaiting]
    exact .done ⟨rfl, frames⟩
  | resumable dst state save next =>
    rw [awaiting] at possible
    obtain ⟨slots, saved, -⟩ := caller.activation.exists_save fun l mem =>
      keeps.index_lt (possible.2.1 l mem)
    simp only [Config.suspendCaller, awaiting, saved]
    refine .bind (.request ?_ ?_)
    · intro c r c' f' answer
      cases answer
      refine .done ⟨rest.delivering _, ?_⟩
      unfold Fiber.unwind
      rw [List.forall_mem_append, List.forall_mem_singleton]
      exact ⟨frames, Or.inr ⟨_, keeps.found, keeps.body⟩⟩
    · intro c v c' f' answer
      cases answer

theorem Surrounds.finish_suspended {focus : Focus} {outer : Option (List Frame)}
    (around : program.Surrounds ⟨focus, [], outer⟩)
    (frames : ∀ frame ∈ f.frames, program.Owns frame) :
    Drive.Ensures (σ := σ) ((⟨focus, [], outer⟩ : Config).finish .suspended) f
      program.Vetted := by
  cases outer with
  | none => exact .done ⟨trivial, frames⟩
  | some others =>
    refine .bind (.request ?_ ?_)
    · intro c r c' f' answer
      cases answer
      refine .done ⟨trivial, ?_⟩
      unfold Fiber.unwindRest
      rw [List.forall_mem_append]
      exact ⟨frames, around.outer others rfl⟩
    · intro c v c' f' answer
      cases answer

theorem Surrounds.finish_completed {focus : Focus} {outer : Option (List Frame)}
    (around : program.Surrounds ⟨focus, [], outer⟩) (completion : Completion)
    (clean : f.frames = []) :
    Drive.Ensures (σ := σ) ((⟨focus, [], outer⟩ : Config).finish (.completed completion)) f
      program.Vetted := by
  cases outer with
  | none => exact .done ⟨trivial, program.owns_nil clean⟩
  | some frames =>
    cases frames with
    | nil =>
      exact .bind (.keeping rfl clean fun _ _ clean => .done ⟨trivial, program.owns_nil clean⟩)
    | cons frame frames =>
      obtain ⟨first, others⟩ := List.forall_mem_cons.1 (around.outer _ rfl)
      refine .done ⟨⟨⟨around.callers, fun rest same => ?_⟩, first⟩, program.owns_nil clean⟩
      rw [← Option.some.inj same]
      exact others

theorem Vets.step (checked : program.Checked) (vets : program.Vets c) (tidy : c.Tidy f)
    (frames : ∀ frame ∈ f.frames, program.Owns frame) :
    Drive.Ensures (σ := σ) (c.step program) f program.Vetted := by
  obtain ⟨around, suits⟩ := vets
  obtain ⟨focus, callers, outer⟩ := c
  cases focus with
  | call target args =>
    simp only [Config.step]
    split
    · exact around.perform _ args false (tidy (by simp))
    · exact .done (vetted_ofExcept (tidy (by simp)) (checked.entered around target args))
  | reenter frame completion =>
    simp only [Config.step]
    split
    · exact around.perform _ frame.slots true (tidy (by simp))
    · rename_i other
      exact .done (vetted_ofExcept (tidy (by simp)) (checked.reentered around suits other completion))
  | run a =>
    cases rest : a.rest with
    | cons s more =>
      simp only [Config.step, rest]
      have inside : s :: more ⊆ a.block.statements := rest ▸ suits.rest
      rw [List.cons_subset] at inside
      have keeps : program.Keeps { a with rest := more } :=
        ⟨suits.found, suits.body, suits.sound, suits.locals, suits.block, inside.2⟩
      exact .bind (.keeping rfl (tidy (by simp)) fun text _ clean =>
        .done (vetted_ofExcept clean (keeps.afterStmt around text inside.1)))
    | nil =>
      simp only [Config.step, rest]
      exact .done (vetted_ofExcept (tidy (by simp)) (suits.afterTerminator around))
  | deliver outcome =>
    cases outcome with
    | completed completion =>
      cases callers with
      | nil => exact around.finish_completed completion (tidy (by simp))
      | cons caller callers =>
        exact .done (vetted_ofExcept (tidy (by simp)) (around.afterCall completion))
    | suspended =>
      cases callers with
      | nil => exact around.finish_suspended frames
      | cons caller callers => exact around.suspendCaller frames

/-- What a run of a checked program ends with, and what it leaves on the fiber. -/
theorem Vets.run (checked : program.Checked) (vets : program.Vets c) (tidy : c.Tidy f)
    (frames : ∀ frame ∈ f.frames, program.Owns frame) (fuel : Nat) :
    Drive.Ensures (σ := σ) (Config.run program fuel c) f fun r f' =>
      Finds (fun _ => True) r ∧ ∀ frame ∈ f'.frames, program.Owns frame := by
  induction fuel generalizing c f with
  | zero => exact .diverge
  | succ fuel ih =>
    rw [Config.run_succ]
    refine .bind (((vets.step checked tidy frames).both (tidy.step program)).mono
      fun progress f' ⟨vetted, tidied⟩ => ?_)
    cases progress with
    | running c => exact ih vetted.1 tidied vetted.2
    | halted r => exact .done vetted

end Program

/-! ## Drives -/

namespace Machine

variable {program : Program} {entry : ProcId} {args : List Value} {m m' : Machine}
  {f f₀ f' : Fiber} {fuel : Nat} {e : Ending (Except MachineFault Outcome)}

theorem advance_finds (checked : m.program.Checked)
    (frames : ∀ frame ∈ f.frames, m.program.Owns frame)
    (run : Drive.Runs (m.advance fuel) f m e f' m') :
    m'.program = m.program ∧ Drive.Meets (fun r f' =>
      Finds (fun _ => True) r ∧ ∀ frame ∈ f'.frames, m.program.Owns frame) e f' := by
  obtain ⟨program, entry, args⟩ := m
  unfold advance at run
  cases run with
  | refused answer => cases answer
  | answered answer rest =>
    cases answer
    change Drive.Runs (Drive.bind (.done f.isSuspended) _) f _ e f' m' at rest
    cases saved : f.isSuspended with
    | true =>
      rw [saved] at rest
      cases rest with
      | refused answer => cases answer
      | answered answer rest =>
        cases answer
        have vets : program.Vets (.ofFrames f.frames) := by
          refine ⟨⟨fun _ mem => absurd mem List.not_mem_nil, ?_⟩, trivial⟩
          rintro - ⟨⟩
          exact frames
        obtain ⟨rfl, meets⟩ :=
          vets.run (f := f.rewind.2) checked (fun _ => rfl) (program.owns_nil rfl) fuel _ _ _ _ rest
        exact ⟨rfl, meets⟩
    | false =>
      have clean : f.frames = [] := by simpa [Fiber.isSuspended] using saved
      rw [saved] at rest
      cases args with
      | none =>
        cases rest
        exact ⟨rfl, rfl, frames⟩
      | some args =>
        cases rest with
        | commit rest =>
          have vets : program.Vets (.ofCall entry args) := by
            refine ⟨⟨fun _ mem => absurd mem List.not_mem_nil, ?_⟩, trivial⟩
            rintro - ⟨⟩
          obtain ⟨rfl, meets⟩ := vets.run checked (fun _ => clean) frames fuel _ _ _ _ rest
          exact ⟨rfl, meets⟩

theorem Driven.owns (checked : program.Checked) (driven : Driven program entry args m f) :
    m.program = program ∧ ∀ frame ∈ f.frames, program.Owns frame := by
  induction driven with
  | start clean => exact ⟨rfl, program.owns_nil clean⟩
  | @drive m m' f f₀ f' fuel e _ kept run ended ih =>
    obtain ⟨rfl, frames⟩ := ih
    rw [← kept] at frames
    obtain ⟨same, meets⟩ := advance_finds checked frames run
    refine ⟨same, ?_⟩
    cases e with
    | finished r => exact meets.2
    | violated message => exact m.program.owns_nil meets
    | diverged => exact absurd rfl ended

/-- A machine on procedures that passed the check, with locals for their parameters, finds
every local and every block, however it is driven. -/
theorem Driven.not_isMissing (checked : program.Checked)
    (driven : Driven program entry args m f) (kept : f₀.frames = f.frames) {fault : MachineFault}
    (run : Drive.Runs (m.advance fuel) f₀ m (.finished (.error fault)) f' m') :
    fault.isMissing = false := by
  obtain ⟨rfl, frames⟩ := driven.owns checked
  rw [← kept] at frames
  exact (advance_finds checked frames run).2.1

/-- The fault of a call that leads nowhere, after the code was resumed. -/
theorem Driven.not_isMissing_lost : ∃ m f f',
    Relay.program.Checked ∧ Driven Relay.program Relay.lost.id [] m f ∧
      Drive.Runs (m.advance 20) f m (.finished (.error (.unknownProcedure Relay.missing))) f' m ∧
      (MachineFault.unknownProcedure Relay.missing).isMissing = false := by
  have checked : Relay.program.Checked := ⟨by decide +kernel, by decide +kernel⟩
  let s : Scene Machine := ⟨.empty, .detached, .ofEntry Relay.program Relay.lost.id []⟩
  let s' := ((s.body.advance 20).run s).2
  have first := Drive.runs_run (s.body.advance 20) s
  have driven : Driven Relay.program Relay.lost.id [] s'.body s'.fiber :=
    .drive (.start rfl) rfl first nofun
  have second : Drive.Runs (s'.body.advance 20) s'.fiber s'.body
      (.finished (.error (.unknownProcedure Relay.missing))) _ _ :=
    Drive.runs_run (s'.body.advance 20) s'
  exact ⟨s'.body, s'.fiber, _, checked, driven, second, driven.not_isMissing checked rfl second⟩

/-- A procedure that gives a number, with a parameter that is not among its locals. -/
def adrift : Procedure :=
  { id := ⟨"app", "answer", "(int)->int"⟩, params := [⟨⟨5⟩, some "n", .int, true⟩]
    retTy := .int, locals := []
    blocks := [{ Block.empty ⟨0⟩ with terminator := .ret (some (.const (.int 42))) }]
    entryBlock := ⟨0⟩, attrs := .plain, states := [] }

/-- It passes the check, but its argument cannot be stored. -/
theorem no_local_for_param : adrift.validate = .ok () ∧
    ∃ m' f', Drive.Runs ((ofEntry ⟨[adrift]⟩ adrift.id [.int 7]).advance 20) .detached
      (ofEntry ⟨[adrift]⟩ adrift.id [.int 7]) (.finished (.error (.noLocal adrift.id ⟨5⟩)))
        f' m' := by
  let s : Scene Machine := ⟨.empty, .detached, .ofEntry ⟨[adrift]⟩ adrift.id [.int 7]⟩
  have run : Drive.Runs (s.body.advance 20) s.fiber s.body
      (.finished (.error (.noLocal adrift.id ⟨5⟩))) _ _ := Drive.runs_run (s.body.advance 20) s
  exact ⟨by decide, _, _, run⟩

end Machine

end Resumable
