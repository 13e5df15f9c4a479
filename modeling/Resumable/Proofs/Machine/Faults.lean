import Resumable.Machine.Step

/-!
# What an activation can fault with

Six faults concern suspending and resuming.  Code that does not touch the resumption
machinery has none of them: reading and storing locals, computing and jumping fail in
other ways.  `Safe` says this of a result, together with what holds of the value if
there is one.
-/

namespace Resumable

namespace MachineFault

/-- The fault concerns suspending or resuming. -/
def isResumption : MachineFault → Bool
  | .notSuspensionPoint .. => true
  | .notWoven .. => true
  | .restoreOutsideResume .. => true
  | .slotCount .. => true
  | .resumedTwice .. => true
  | .noState .. => true
  | _ => false

/-- The value is of some kind, or the fault does not concern resumption. -/
def Safe {α : Type} (post : α → Prop) : Except MachineFault α → Prop
  | .ok a => post a
  | .error fault => fault.isResumption = false

variable {α β : Type}

theorem Safe.bind {x : Except MachineFault α} {f : α → Except MachineFault β} {post : β → Prop}
    (h : Safe (fun a => Safe post (f a)) x) : Safe post (x >>= f) := by
  cases x with
  | error fault => exact h
  | ok a => exact h

theorem Safe.mono {x : Except MachineFault α} {post more : α → Prop} (h : Safe post x)
    (weaker : ∀ a, post a → more a) : Safe more x := by
  cases x with
  | error fault => exact h
  | ok a => exact weaker a h

end MachineFault

open MachineFault (Safe)

namespace Activation

variable (a : Activation)

theorem safe_read (id : LocalId) : Safe (fun _ => True) (a.read id) := by
  unfold read
  split
  · trivial
  · rfl

theorem safe_storeIn (proc : ProcId) (locals : List Value) (id : LocalId) (v : Value) :
    Safe (fun l => l.length = locals.length) (storeIn proc locals id v) := by
  unfold storeIn
  split
  · exact List.length_set
  · rfl

theorem safe_storeAllIn (proc : ProcId) (locals : List Value) (items : List (LocalId × Value)) :
    Safe (fun l => l.length = locals.length) (storeAllIn proc locals items) := by
  induction items generalizing locals with
  | nil => rfl
  | cons item items ih =>
    rw [storeAllIn]
    refine ((safe_storeIn proc locals item.1 item.2).mono fun l same => ?_).bind
    exact (ih l).mono fun _ => (·.trans same)

theorem safe_storeTo (dst : Option LocalId) (v : Value) :
    Safe (fun b => ∃ locals, locals.length = a.locals.length ∧ b = { a with locals })
      (a.storeTo dst v) := by
  cases dst with
  | none => exact ⟨a.locals, rfl, rfl⟩
  | some id =>
    refine ((safe_storeIn a.proc.id a.locals id v).mono fun l same => ?_).bind
    exact ⟨l, same, rfl⟩

theorem safe_evaluate (o : Operand) : Safe (fun _ => True) (a.evaluate o) := by
  cases o with
  | «local» id => exact a.safe_read id
  | const c => trivial

theorem safe_evaluateAll (operands : List Operand) :
    Safe (fun _ => True) (a.evaluateAll operands) := by
  induction operands with
  | nil => trivial
  | cons o more ih =>
    refine ((a.safe_evaluate o).mono fun _ _ => ?_).bind
    exact (ih.mono fun _ _ => trivial).bind

theorem safe_compute (text : Value → String) (rvalue : RValue) :
    Safe (fun _ => True) (a.compute text rvalue) := by
  cases rvalue with
  | use o => exact ((a.safe_evaluate o).mono fun _ _ => trivial).bind
  | binary op l r =>
    refine ((a.safe_evaluate l).mono fun left _ => ?_).bind
    refine ((a.safe_evaluate r).mono fun right _ => ?_).bind
    unfold BinOp.apply
    split <;> trivial
  | unary op o =>
    refine ((a.safe_evaluate o).mono fun v _ => ?_).bind
    unfold UnaryOp.apply
    split <;> trivial

/-! ## Saving -/

theorem read_eq {id : LocalId} (lt : id.index < a.locals.length) :
    a.read id = .ok a.locals[id.index] := by
  unfold read
  rw [List.getElem?_eq_getElem lt]

/-- Locals that exist can be saved. -/
theorem exists_save {save : List LocalId} (lt : ∀ l ∈ save, l.index < a.locals.length) :
    ∃ slots, a.save save = .ok slots ∧ slots.length = save.length := by
  induction save with
  | nil => exact ⟨[], rfl, rfl⟩
  | cons l more ih =>
    rw [List.forall_mem_cons] at lt
    obtain ⟨slots, saved, same⟩ := ih lt.2
    refine ⟨a.locals[l.index] :: slots, ?_, congrArg Nat.succ same⟩
    rw [Activation.save, a.read_eq lt.1, saved]
    rfl

/-! ## Resuming -/

variable {a}

theorem restore_eq {state : StateId} {slots : List Value} {completion : Option Completion}
    {save : List LocalId} (resumption : a.resumption = some ⟨state, some slots, completion⟩)
    (length : slots.length = save.length) :
    a.restore save = (storeAllIn a.proc.id a.locals (save.zip slots) >>= fun locals =>
      .ok { a with locals, resumption := some ⟨state, none, completion⟩ }) := by
  unfold restore
  rw [resumption]
  simp only
  rw [if_neg (not_not_intro length)]
  rfl

theorem takeCompletion_eq {state : StateId} {slots : Option (List Value)}
    {completion : Completion} (resumption : a.resumption = some ⟨state, slots, some completion⟩) :
    a.takeCompletion = .ok (completion, { a with resumption := some ⟨state, slots, none⟩ }) := by
  unfold takeCompletion
  rw [resumption]

theorem dispatch_eq {state : StateId} {slots : Option (List Value)}
    {completion : Option Completion} {arms : List (StateId × BlockId)} {fresh resume : BlockId}
    (resumption : a.resumption = some ⟨state, slots, completion⟩)
    (arm : arms.find? (·.1 == state) = some (state, resume)) :
    a.dispatch fresh arms = .ok resume := by
  unfold dispatch
  rw [resumption]
  simp only [arm]

theorem dispatch_fresh {arms : List (StateId × BlockId)} {fresh : BlockId}
    (resumption : a.resumption = none) : a.dispatch fresh arms = .ok fresh := by
  unfold dispatch
  rw [resumption]

end Activation

/-! ## Jumps -/

theorem Program.goto_eq {c : Config} {a : Activation} {id : BlockId} {b : Block}
    (found : a.proc.block? id = some b) :
    c.goto a id = .ok (c.running { a with block := b, rest := b.statements }) := by
  unfold Config.goto Activation.enter Activation.atBlock
  rw [found]
  rfl

end Resumable
