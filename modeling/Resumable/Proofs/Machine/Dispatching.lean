import Resumable.Proofs.Machine.Agreement
import Resumable.Proofs.Machine.Faults
import Resumable.Proofs.Weave.Numbering

/-!
# Where a saved frame is entered again

A saved frame is entered again at the dispatcher, which is to lead to the block that
restores what the frame holds.  `Procedure.verify` checks this, but it reads the arms of the
dispatcher in its own way: of several arms for one state it takes the last one, the machine
takes the first one.

* Where the arms for a state agree, both come to the same block.  Then every frame that a
  suspending call saves is entered again at a block that begins by restoring exactly the
  locals whose values the frame holds (`Procedure.resumesInto_of_saves`).
* Where they do not, a procedure passes the check and is resumed at a block that nobody has
  looked at (`Procedure.verify_first_arm`).

What stands in front of the dispatcher in the entry block is not checked either, so the
statement is about every activation that comes to the end of that block.
-/

namespace Resumable

/-- Arms for one state lead to one block. -/
def ArmsAgree (arms : List (StateId × BlockId)) : Prop :=
  ∀ x ∈ arms, ∀ y ∈ arms, x.1 = y.1 → x = y

instance (arms : List (StateId × BlockId)) : Decidable (ArmsAgree arms) :=
  inferInstanceAs (Decidable (∀ x ∈ arms, ∀ y ∈ arms, x.1 = y.1 → x = y))

/-- If arms for one state agree, the first one leads where the last one does. -/
theorem find?_of_armFor? {arms : List (StateId × BlockId)} {state : StateId} {resume : BlockId}
    (agree : ArmsAgree arms) (arm : armFor? arms state = some resume) :
    arms.find? (·.1 == state) = some (state, resume) := by
  obtain ⟨last, found, rfl⟩ := Option.map_eq_some_iff.1 arm
  have listed : last ∈ arms := List.mem_reverse.1 (List.mem_of_find?_eq_some found)
  have here : last.1 = state := by simpa using List.find?_some found
  cases first : arms.find? (·.1 == state) with
  | none => simpa [here] using List.find?_eq_none.1 first last listed
  | some arm =>
    have there : arm.1 = state := by simpa using List.find?_some first
    have same := agree arm (List.mem_of_find?_eq_some first) last listed (there.trans here.symm)
    rw [same, ← here]

namespace Procedure

/-- A frame that a suspending call of a procedure saves, with what the locals of its save list
hold. -/
inductive Saves (p : Procedure) (save : List LocalId) : Frame → Prop
  | intro {b : Block} {a : Activation} {dst : Option LocalId} {func : FunctionRef}
      {args : List Operand} {state : StateId} {next : BlockId} {slots : List Value}
      (block : b ∈ p.blocks) (last : b.terminator = .suspendCall dst func args state save next)
      (inside : a.proc = p) (saved : a.save save = .ok slots) :
    Saves p save ⟨p.id, state, slots⟩

/-- A frame is entered again at the entry block, with nothing in its locals.  From the end of
that block, whatever was done before, control goes to a block that begins by restoring some
locals, as many as the frame has slots. -/
def ResumesInto (p : Procedure) (save : List LocalId) (frame : Frame) : Prop :=
  ∃ entry resume more, p.block? p.entryBlock = some entry ∧ resume ∈ p.blocks ∧
    resume.statements = .restore save :: more ∧ frame.slots.length = save.length ∧
    ∀ program : Program, program.procedure? p.id = some p → Primitive.ofProc? p.id = none →
    ∀ (σ : Type) (callers : List Caller) (outer : Option (List Frame)),
      (∀ completion, (Config.step program ⟨.reenter frame completion, callers, outer⟩ :
          Drive σ Progress) =
        .done (.running ⟨.run ⟨p, Activation.blank p,
          some ⟨frame.state, some frame.slots, some completion⟩, entry, entry.statements⟩,
          callers, outer⟩)) ∧
      ∀ locals held completion, (Config.step program
          ⟨.run ⟨p, locals, some ⟨frame.state, held, completion⟩, entry, []⟩, callers, outer⟩ :
          Drive σ Progress) =
        .done (.running ⟨.run ⟨p, locals, some ⟨frame.state, held, completion⟩, resume,
          resume.statements⟩, callers, outer⟩)

variable {p : Procedure}

/-- A block that restores something first has that in front of its other statements. -/
theorem exists_of_restored? {id : BlockId} {save : List LocalId}
    (restores : (p.block? id).bind Block.restored? = some save) :
    ∃ b more, p.block? id = some b ∧ b.statements = .restore save :: more := by
  obtain ⟨b, found, restored⟩ := Option.bind_eq_some_iff.1 restores
  unfold Block.restored? at restored
  split at restored
  · rename_i slots more first
    cases restored
    exact ⟨b, more, found, first⟩
  · cases restored

/-- A frame that a suspending call saves is entered again where it is restored, if the
procedure is valid, passes the check of the resumable form and has no two arms of the
dispatcher that lead from one state to different blocks. -/
theorem resumesInto_of_saves (valid : p.validate = .ok ()) (body : p.hasBody = true)
    (verified : p.verify = .ok ())
    (agree : ∀ entry fresh arms, p.block? p.entryBlock = some entry →
      entry.terminator = .dispatch fresh arms → ArmsAgree arms)
    (save : List LocalId) (frame : Frame) (saves : p.Saves save frame) :
    p.ResumesInto save frame := by
  have sound := sound_of_validate valid body
  obtain ⟨entry, fresh, arms, live, form⟩ := verify_eq_ok_iff.1 verified
  obtain ⟨block, last, -, saved⟩ := saves
  rename_i b a dst func args state next slots
  have call : (state, save) ∈ p.suspensions :=
    List.mem_filterMap.2 ⟨b, block, by rw [last]; rfl⟩
  obtain ⟨resume, path⟩ := form.paths _ call
  obtain ⟨c, more, there, first⟩ := exists_of_restored? path.restores
  have dispatched := find?_of_armFor? (agree entry fresh arms form.found form.dispatches) path.arm
  have woven : p.attrs.woven = true :=
    (sound.blocks entry (List.mem_of_getElem? form.found)).plainEnd (by rw [form.dispatches]; rfl)
  refine ⟨entry, c, more, form.found, List.mem_of_getElem? there, first,
    Activation.length_save saved, fun program held notPrimitive σ callers outer => ⟨?_, ?_⟩⟩
  · intro completion
    have entered : Activation.resumed p ⟨p.id, state, slots⟩ completion =
        .ok ⟨p, Activation.blank p, some ⟨state, some slots, some completion⟩, entry,
          entry.statements⟩ := by
      unfold Activation.resumed Activation.atBlock
      rw [form.found]
    simp only [Config.step, notPrimitive, Config.reentered, held, woven, if_true, entered]
    rfl
  · intro locals held completion
    have went : Activation.dispatch ⟨p, locals, some ⟨state, held, completion⟩, entry, []⟩ fresh
        arms = .ok resume := Activation.dispatch_eq rfl dispatched
    simp only [Config.step, form.dispatches, Config.afterTerminator, went]
    show Drive.done (Progress.ofExcept (Config.goto _ _ resume)) = _
    unfold Config.goto Activation.enter Activation.atBlock
    rw [there]
    rfl

end Procedure

/-- The block of `keeper` that makes the suspending call. -/
def keeperCall : Block :=
  { Block.empty ⟨1⟩ with
    terminator := .suspendCall (some ⟨1⟩) ⟨Primitive.yield.procId, .static⟩ [.local ⟨0⟩] ⟨1⟩ [⟨0⟩]
      ⟨3⟩ }

/-- The block of `keeper` behind the call. -/
def keeperReturn : Block :=
  { Block.empty ⟨3⟩ with terminator := .ret (some (.local ⟨0⟩)) }

/-- Gives up the worker and returns its argument after that.  It is in resumable form, with
some arms at its dispatcher. -/
def keeper (arms : List (StateId × BlockId)) : Procedure :=
  { id := ⟨"Keeper", "keep", "(any)->any"⟩, params := [⟨⟨0⟩, some "kept", .any, true⟩]
    retTy := .any
    locals := [⟨⟨0⟩, some "kept", .any, true⟩, ⟨⟨1⟩, some "answer", .any, false⟩,
      ⟨⟨2⟩, some "error", .any, false⟩]
    blocks := [
      { Block.empty ⟨0⟩ with terminator := .dispatch ⟨1⟩ arms },
      keeperCall,
      { Block.empty ⟨2⟩ with
        statements := [.restore [⟨0⟩], .resume (some ⟨1⟩)], terminator := .goto ⟨3⟩ },
      keeperReturn]
    entryBlock := ⟨0⟩, attrs := { ProcAttrs.plain with woven := true }
    states := [⟨⟨0⟩, ⟨1⟩, [], [⟨1⟩]⟩, ⟨⟨1⟩, ⟨2⟩, [⟨⟨0⟩, "kept", .any⟩], []⟩] }

/-- The frame that `keeper` saves when it is called with 42. -/
theorem keeper_saves (arms : List (StateId × BlockId)) :
    (keeper arms).Saves [⟨0⟩] ⟨(keeper arms).id, ⟨1⟩, [.int 42]⟩ := by
  have block : keeperCall ∈ (keeper arms).blocks := List.mem_cons_of_mem _ List.mem_cons_self
  exact .intro (a := ⟨keeper arms, [.int 42, .unit, .unit], none, keeperCall, []⟩) block rfl rfl
    rfl

theorem Procedure.resumesInto_keeper :
    (keeper [(⟨1⟩, ⟨2⟩)]).validate = .ok () ∧ (keeper [(⟨1⟩, ⟨2⟩)]).hasBody = true ∧
      (keeper [(⟨1⟩, ⟨2⟩)]).verify = .ok () ∧
      (keeper [(⟨1⟩, ⟨2⟩)]).ResumesInto [⟨0⟩] ⟨(keeper []).id, ⟨1⟩, [.int 42]⟩ := by
  have valid : (keeper [(⟨1⟩, ⟨2⟩)]).validate = .ok () := by decide
  have body : (keeper [(⟨1⟩, ⟨2⟩)]).hasBody = true := by decide
  have verified : (keeper [(⟨1⟩, ⟨2⟩)]).verify = .ok () := by decide
  refine ⟨valid, body, verified, Procedure.resumesInto_of_saves valid body verified ?_ _ _
    (keeper_saves _)⟩
  intro entry fresh arms found dispatches
  cases found
  cases dispatches
  decide

/-- With two arms for its state, the second of which leads to the resume block, the procedure
passes both checks, but its frame is not entered there: the first arm goes past the restoring
block. -/
theorem Procedure.verify_first_arm :
    (keeper [(⟨1⟩, ⟨3⟩), (⟨1⟩, ⟨2⟩)]).validate = .ok () ∧
      (keeper [(⟨1⟩, ⟨3⟩), (⟨1⟩, ⟨2⟩)]).hasBody = true ∧
      (keeper [(⟨1⟩, ⟨3⟩), (⟨1⟩, ⟨2⟩)]).verify = .ok () ∧
      ∃ save frame, (keeper [(⟨1⟩, ⟨3⟩), (⟨1⟩, ⟨2⟩)]).Saves save frame ∧
        ¬ (keeper [(⟨1⟩, ⟨3⟩), (⟨1⟩, ⟨2⟩)]).ResumesInto save frame := by
  refine ⟨by decide, by decide, by decide, _, _, keeper_saves _, ?_⟩
  intro resumes
  obtain ⟨entry, resume, more, found, -, restores, -, steps⟩ := resumes
  cases found
  obtain ⟨-, went⟩ := steps ⟨[keeper [(⟨1⟩, ⟨3⟩), (⟨1⟩, ⟨2⟩)]]⟩ (by decide) (by decide) Unit [] none
  have arrived := congrArg Config.focus (Progress.running.inj (Drive.done.inj (went [] none none)))
  have past : keeperReturn = resume := congrArg Activation.block (Focus.run.inj arrived)
  rw [← past] at restores
  cases restores

end Resumable
