import Resumable.Machine.Activation

/-!
# Activations that agree on some locals

Two activations of one code need not hold the same values.  If they agree on the locals
that the code reads, then it does the same in both: it computes the same values, or it
faults in both (`Alike`).  What is stored keeps the agreement and extends it.

The values of the saved locals, stored in blank ones, agree with the locals that they
were read from (`Agree.storeAllIn`).
-/

namespace Resumable

/-! ## Results alike -/

/-- Both results are values that stand in a relation, or both are faults. -/
def Alike {α β : Type} (rel : α → β → Prop) :
    Except MachineFault α → Except MachineFault β → Prop
  | .ok a, .ok b => rel a b
  | .error _, .error _ => True
  | _, _ => False

namespace Alike

variable {α β γ δ : Type} {rel : α → β → Prop}

theorem bind {x : Except MachineFault α} {y : Except MachineFault β}
    {f : α → Except MachineFault γ} {g : β → Except MachineFault δ} {rel' : γ → δ → Prop}
    (h : Alike rel x y) (next : ∀ a b, rel a b → Alike rel' (f a) (g b)) :
    Alike rel' (x >>= f) (y >>= g) := by
  cases x with
  | error fault =>
    cases y with
    | error fault' => trivial
    | ok b => exact h.elim
  | ok a =>
    cases y with
    | error fault => exact h.elim
    | ok b => exact next a b h

/-- Equal values are handed on. -/
theorem bind_eq {x y : Except MachineFault α} {f : α → Except MachineFault γ}
    {g : α → Except MachineFault δ} {rel' : γ → δ → Prop} (h : Alike (· = ·) x y)
    (next : ∀ a, Alike rel' (f a) (g a)) : Alike rel' (x >>= f) (y >>= g) := by
  refine h.bind fun a b same => ?_
  subst same
  exact next a

theorem mono {x : Except MachineFault α} {y : Except MachineFault β} {more : α → β → Prop}
    (h : Alike rel x y) (weaker : ∀ a b, rel a b → more a b) : Alike more x y := by
  cases x with
  | error fault =>
    cases y with
    | error fault' => trivial
    | ok b => exact h.elim
  | ok a =>
    cases y with
    | error fault => exact h.elim
    | ok b => exact weaker a b h

theorem refl (x : Except MachineFault α) : Alike (· = ·) x x := by
  cases x with
  | error fault => trivial
  | ok a => exact rfl

end Alike

/-! ## Agreement -/

/-- Two times the locals of a procedure; some, those that are needed, have the same
values. -/
structure Agree (size : Nat) (needed : LocalId → Prop) (locals locals' : List Value) :
    Prop where
  left : locals.length = size
  right : locals'.length = size
  same : ∀ id, needed id → locals[id.index]? = locals'[id.index]?

namespace Agree

variable {size : Nat} {needed : LocalId → Prop} {locals locals' : List Value}
  {a b : Activation}

theorem mono {fewer : LocalId → Prop} (h : Agree size needed locals locals')
    (sub : ∀ id, fewer id → needed id) : Agree size fewer locals locals' :=
  ⟨h.left, h.right, fun id mem => h.same id (sub id mem)⟩

theorem trans {locals'' : List Value} (h : Agree size needed locals locals')
    (h' : Agree size needed locals' locals'') : Agree size needed locals locals'' :=
  ⟨h.left, h'.right, fun id mem => (h.same id mem).trans (h'.same id mem)⟩

theorem symm (h : Agree size needed locals locals') : Agree size needed locals' locals :=
  ⟨h.right, h.left, fun id mem => (h.same id mem).symm⟩

/-! ## Reading -/

theorem read (h : Agree size needed a.locals b.locals) {id : LocalId} (mem : needed id) :
    Alike (· = ·) (a.read id) (b.read id) := by
  unfold Activation.read
  rw [h.same id mem]
  cases b.locals[id.index]? with
  | none => trivial
  | some v => exact rfl

theorem evaluate (h : Agree size needed a.locals b.locals) {o : Operand}
    (reads : ∀ id ∈ o.local?, needed id) : Alike (· = ·) (a.evaluate o) (b.evaluate o) := by
  cases o with
  | «local» id => exact h.read (reads id rfl)
  | const c => exact rfl

theorem evaluateAll (h : Agree size needed a.locals b.locals) {operands : List Operand}
    (reads : ∀ id ∈ operands.filterMap Operand.local?, needed id) :
    Alike (· = ·) (a.evaluateAll operands) (b.evaluateAll operands) := by
  induction operands with
  | nil => exact rfl
  | cons o more ih =>
    have here : ∀ id ∈ o.local?, needed id := fun id mem =>
      reads id (List.mem_filterMap.2 ⟨o, List.mem_cons_self, mem⟩)
    have rest : ∀ id ∈ more.filterMap Operand.local?, needed id := by
      intro id mem
      obtain ⟨o', mem', reads'⟩ := List.mem_filterMap.1 mem
      exact reads id (List.mem_filterMap.2 ⟨o', List.mem_cons_of_mem _ mem', reads'⟩)
    refine (h.evaluate here).bind_eq fun v => ?_
    refine (ih rest).bind_eq fun values => ?_
    exact rfl

theorem compute (h : Agree size needed a.locals b.locals) (text : Value → String) {rvalue : RValue}
    (reads : ∀ id ∈ rvalue.operands.filterMap Operand.local?, needed id) :
    Alike (· = ·) (a.compute text rvalue) (b.compute text rvalue) := by
  have each : ∀ o ∈ rvalue.operands, Alike (· = ·) (a.evaluate o) (b.evaluate o) :=
    fun o mem => h.evaluate fun id reads' => reads id (List.mem_filterMap.2 ⟨o, mem, reads'⟩)
  cases rvalue with
  | use o =>
    refine (each o List.mem_cons_self).bind_eq fun v => ?_
    exact rfl
  | binary op l r =>
    refine (each l List.mem_cons_self).bind_eq fun left => ?_
    refine (each r (List.mem_cons_of_mem _ List.mem_cons_self)).bind_eq fun right => ?_
    exact .refl _
  | unary op o =>
    refine (each o List.mem_cons_self).bind_eq fun v => ?_
    exact .refl _

/-! ## Storing -/

/-- What is stored in a local agrees from then on. -/
theorem storeIn (h : Agree size needed locals locals') (proc proc' : ProcId) (id : LocalId)
    (v : Value) :
    Alike (Agree size fun l => l = id ∨ needed l) (Activation.storeIn proc locals id v)
      (Activation.storeIn proc' locals' id v) := by
  unfold Activation.storeIn
  rw [h.left, h.right]
  split
  · refine ⟨by rw [List.length_set, h.left], by rw [List.length_set, h.right], fun l mem => ?_⟩
    rw [List.getElem?_set, List.getElem?_set, h.left, h.right]
    rcases mem with rfl | mem
    · rw [if_pos rfl, if_pos rfl]
    · rw [h.same l mem]
  · trivial

theorem store (h : Agree size needed a.locals b.locals) (id : LocalId) (v : Value) :
    Alike (fun a' b' => ∃ l l', a' = { a with locals := l } ∧ b' = { b with locals := l' } ∧
      Agree size (fun x => x = id ∨ needed x) l l') (a.store id v) (b.store id v) := by
  refine (h.storeIn a.proc.id b.proc.id id v).bind fun l l' agree => ?_
  exact ⟨l, l', rfl, rfl, agree⟩

theorem storeTo (h : Agree size needed a.locals b.locals) (dst : Option LocalId) (v : Value) :
    Alike (fun a' b' => ∃ l l', a' = { a with locals := l } ∧ b' = { b with locals := l' } ∧
      Agree size (fun x => x ∈ dst ∨ needed x) l l') (a.storeTo dst v) (b.storeTo dst v) := by
  cases dst with
  | none => exact ⟨a.locals, b.locals, rfl, rfl, h.mono fun x mem => mem.resolve_left nofun⟩
  | some id =>
    refine (h.store id v).mono ?_
    rintro - - ⟨l, l', rfl, rfl, agree⟩
    refine ⟨l, l', rfl, rfl, agree.mono fun x mem => mem.imp_left fun here => ?_⟩
    exact (Option.some.inj here).symm

/-! ## Restoring -/

/-- A local that is set to the value it is to have agrees from then on. -/
theorem set (h : Agree size needed locals locals') {id : LocalId} {v : Value}
    (value : locals'[id.index]? = some v) :
    Agree size (fun l => l = id ∨ needed l) (locals.set id.index v) locals' := by
  have lt : id.index < locals.length := by
    rw [h.left, ← h.right]
    exact (List.getElem?_eq_some_iff.1 value).1
  refine ⟨by rw [List.length_set, h.left], h.right, fun l mem => ?_⟩
  rw [List.getElem?_set]
  split
  · rename_i same
    rw [← same, value]
  · rename_i other
    exact h.same l (mem.resolve_left fun here => other (by rw [here]))

end Agree

theorem Activation.save_cons {a : Activation} {id : LocalId} {save : List LocalId}
    {slots : List Value} (saved : a.save (id :: save) = .ok slots) :
    ∃ v more, a.locals[id.index]? = some v ∧ a.save save = .ok more ∧ slots = v :: more := by
  rw [Activation.save, Activation.read] at saved
  cases found : a.locals[id.index]? with
  | none =>
    rw [found] at saved
    cases saved
  | some v =>
    cases rest : a.save save with
    | error fault =>
      rw [found, rest] at saved
      cases saved
    | ok more =>
      rw [found, rest] at saved
      cases saved
      exact ⟨v, more, rfl, rfl, rfl⟩

theorem Activation.length_save {a : Activation} {save : List LocalId} {slots : List Value}
    (saved : a.save save = .ok slots) : slots.length = save.length := by
  induction save generalizing slots with
  | nil =>
    cases saved
    rfl
  | cons id save ih =>
    obtain ⟨v, more, -, rest, rfl⟩ := save_cons saved
    exact congrArg Nat.succ (ih rest)

/-- The saved values of some locals, stored again, are what these locals were. -/
theorem Agree.storeAllIn {size : Nat} {needed : LocalId → Prop} {locals : List Value} {a : Activation}
    (h : Agree size needed locals a.locals) (proc : ProcId) {save : List LocalId}
    {slots : List Value} (saved : a.save save = .ok slots) :
    ∃ restored, Activation.storeAllIn proc locals (save.zip slots) = .ok restored ∧
      Agree size (fun l => l ∈ save ∨ needed l) restored a.locals := by
  induction save generalizing needed locals slots with
  | nil => exact ⟨locals, rfl, h.mono fun l mem => mem.resolve_left List.not_mem_nil⟩
  | cons id save ih =>
    obtain ⟨v, more, value, rest, rfl⟩ := Activation.save_cons saved
    obtain ⟨restored, all, agree⟩ := ih (h.set value) rest
    refine ⟨restored, ?_, agree.mono fun l mem => ?_⟩
    · rw [List.zip_cons_cons, Activation.storeAllIn]
      unfold Activation.storeIn
      rw [if_pos (by rw [h.left, ← h.right]; exact (List.getElem?_eq_some_iff.1 value).1)]
      exact all
    · rw [List.mem_cons, or_assoc] at mem
      exact or_left_comm.1 mem

end Resumable
