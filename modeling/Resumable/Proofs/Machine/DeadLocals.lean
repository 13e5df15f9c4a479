import Resumable.Proofs.Machine.Dispatching
import Resumable.Proofs.Machine.Simulation

/-!
# Dead locals

What is in a local that is not live makes no difference.  Two activations at one place of
a procedure, whose locals agree on what is live there, ask for the same things in the same
order and end in the same way, whatever the procedure is and whoever waits for it.

While one of the two runs is at work, the other one is at the same place (`Config.Twins`):

* the activation at work agrees on what is live in front of its next statement;
* a caller agrees on what it needs once its call has ended, and on what it would save if
  that call suspends;
* everything else is the same, the resumption of an activation included.

`Config.Twins.step` keeps this, and the two steps make the same requests (`Drive.Tracks`).
Two runs that make the same requests are the same drive, so the main statement,
`Liveness.run_eq_of_atStart`, is an equation.
-/

namespace Resumable

/-! ## Drives that ask for the same things -/

namespace Drive

variable {σ α β γ δ : Type}

/-- Both drives make the same requests.  What they end with stands in a relation, if the
answers are the same. -/
inductive Tracks (rel : α → β → Prop) : Drive σ α → Drive σ β → Prop
  | done {a : α} {b : β} (h : rel a b) : Tracks rel (.done a) (.done b)
  | violate (message : String) : Tracks rel (.violate message) (.violate message)
  | diverge : Tracks rel .diverge .diverge
  | commit {s : σ} {next : Unit → Drive σ α} {next' : Unit → Drive σ β}
      (h : ∀ u, Tracks rel (next u) (next' u)) : Tracks rel (.commit s next) (.commit s next')
  | ask {op : Op} {next : op.Reply → Drive σ α} {next' : op.Reply → Drive σ β}
      (h : ∀ r, Tracks rel (next r) (next' r)) : Tracks rel (.ask op next) (.ask op next')

namespace Tracks

theorem refl (d : Drive σ α) : Tracks (· = ·) d d := by
  induction d with
  | done a => exact .done rfl
  | violate message => exact .violate message
  | diverge => exact .diverge
  | commit s next ih => exact .commit ih
  | ask op next ih => exact .ask ih

theorem eq {d d' : Drive σ α} (h : Tracks (· = ·) d d') : d = d' := by
  induction h with
  | done same => rw [same]
  | violate message => rfl
  | diverge => rfl
  | commit _ ih => exact congrArg (Drive.commit _) (funext ih)
  | ask _ ih => exact congrArg (Drive.ask _) (funext ih)

theorem bind {rel : α → β → Prop} {rel' : γ → δ → Prop} {d : Drive σ α} {d' : Drive σ β}
    {f : α → Drive σ γ} {g : β → Drive σ δ} (h : Tracks rel d d')
    (next : ∀ a b, rel a b → Tracks rel' (f a) (g b)) : Tracks rel' (d.bind f) (d'.bind g) := by
  induction h with
  | done same => exact next _ _ same
  | violate message => exact .violate message
  | diverge => exact .diverge
  | commit _ ih => exact .commit ih
  | ask _ ih => exact .ask ih

/-- One drive, gone on with in two ways. -/
theorem bind_refl {rel : γ → δ → Prop} {f : α → Drive σ γ} {g : α → Drive σ δ} (d : Drive σ α)
    (next : ∀ a, Tracks rel (f a) (g a)) : Tracks rel (d.bind f) (d.bind g) := by
  refine (refl d).bind fun a b same => ?_
  subst same
  exact next a

end Tracks

end Drive

/-! ## Results that are the same up to a relation -/

/-- Both results are values that stand in a relation, or both are the same fault. -/
inductive Likewise {α β : Type} (rel : α → β → Prop) :
    Except MachineFault α → Except MachineFault β → Prop
  | ok {a : α} {b : β} (h : rel a b) : Likewise rel (.ok a) (.ok b)
  | error (fault : MachineFault) : Likewise rel (.error fault) (.error fault)

namespace Likewise

variable {α β γ δ : Type} {rel : α → β → Prop} {rel' : γ → δ → Prop}

theorem bind {x : Except MachineFault α} {y : Except MachineFault β}
    {f : α → Except MachineFault γ} {g : β → Except MachineFault δ} (h : Likewise rel x y)
    (next : ∀ a b, rel a b → Likewise rel' (f a) (g b)) : Likewise rel' (x >>= f) (y >>= g) := by
  cases h with
  | ok same => exact next _ _ same
  | error fault => exact .error fault

theorem mono {x : Except MachineFault α} {y : Except MachineFault β} {more : α → β → Prop}
    (h : Likewise rel x y) (weaker : ∀ a b, rel a b → more a b) : Likewise more x y := by
  cases h with
  | ok same => exact .ok (weaker _ _ same)
  | error fault => exact .error fault

/-- Equal results are handed on. -/
theorem bind_eq {x y : Except MachineFault α} {f : α → Except MachineFault γ}
    {g : α → Except MachineFault δ} (h : x = y) (next : ∀ a, Likewise rel' (f a) (g a)) :
    Likewise rel' (x >>= f) (y >>= g) := by
  subst h
  cases x with
  | ok a => exact next a
  | error fault => exact .error fault

end Likewise

/-! ## Activations that differ in their locals

What an activation computes from the locals that it needs is the same for other locals
that agree on these. -/

namespace Agree

variable {size : Nat} {needed : LocalId → Prop} {a : Activation} {locals : List Value}

theorem read_eq (h : Agree size needed a.locals locals) {id : LocalId} (mem : needed id) :
    a.read id = { a with locals }.read id := by
  unfold Activation.read
  rw [h.same id mem]

theorem evaluate_eq (h : Agree size needed a.locals locals) {o : Operand}
    (reads : ∀ id ∈ o.local?, needed id) : a.evaluate o = { a with locals }.evaluate o := by
  cases o with
  | «local» id => exact h.read_eq (reads id rfl)
  | const c => rfl

theorem evaluateAll_eq (h : Agree size needed a.locals locals) {operands : List Operand}
    (reads : ∀ id ∈ operands.filterMap Operand.local?, needed id) :
    a.evaluateAll operands = { a with locals }.evaluateAll operands := by
  induction operands with
  | nil => rfl
  | cons o more ih =>
    have here : ∀ id ∈ o.local?, needed id := fun id mem =>
      reads id (List.mem_filterMap.2 ⟨o, List.mem_cons_self, mem⟩)
    have rest : ∀ id ∈ more.filterMap Operand.local?, needed id := by
      intro id mem
      obtain ⟨o', mem', reads'⟩ := List.mem_filterMap.1 mem
      exact reads id (List.mem_filterMap.2 ⟨o', List.mem_cons_of_mem _ mem', reads'⟩)
    simp only [Activation.evaluateAll]
    rw [← h.evaluate_eq here, ← ih rest]

theorem compute_eq (h : Agree size needed a.locals locals) (text : Value → String)
    {rvalue : RValue} (reads : ∀ id ∈ rvalue.operands.filterMap Operand.local?, needed id) :
    a.compute text rvalue = { a with locals }.compute text rvalue := by
  have each : ∀ o ∈ rvalue.operands, a.evaluate o = { a with locals }.evaluate o :=
    fun o mem => h.evaluate_eq fun id read => reads id (List.mem_filterMap.2 ⟨o, mem, read⟩)
  cases rvalue with
  | use o => simp only [Activation.compute, each o List.mem_cons_self]
  | binary op l r =>
    simp only [Activation.compute, each l List.mem_cons_self,
      each r (List.mem_cons_of_mem _ List.mem_cons_self)]
  | unary op o => simp only [Activation.compute, each o List.mem_cons_self]

theorem save_eq (h : Agree size needed a.locals locals) {save : List LocalId}
    (reads : ∀ id ∈ save, needed id) : a.save save = { a with locals }.save save := by
  induction save with
  | nil => rfl
  | cons id more ih =>
    rw [List.forall_mem_cons] at reads
    simp only [Activation.save]
    rw [← h.read_eq reads.1, ← ih reads.2]

/-! ## Storing -/

theorem storeIn_likewise {locals' : List Value} (h : Agree size needed locals' locals)
    (proc : ProcId) (id : LocalId) (v : Value) :
    Likewise (Agree size fun l => l = id ∨ needed l) (Activation.storeIn proc locals' id v)
      (Activation.storeIn proc locals id v) := by
  have stored := h.storeIn proc proc id v
  unfold Activation.storeIn at stored ⊢
  rw [h.left, h.right] at stored ⊢
  split
  · rename_i lt
    rw [if_pos lt, if_pos lt] at stored
    exact .ok stored
  · exact .error _

theorem storeAllIn_likewise {locals' : List Value} (h : Agree size needed locals' locals)
    (proc : ProcId) (items : List (LocalId × Value)) :
    Likewise (Agree size fun l => l ∈ items.map Prod.fst ∨ needed l)
      (Activation.storeAllIn proc locals' items) (Activation.storeAllIn proc locals items) := by
  induction items generalizing needed locals locals' with
  | nil => exact .ok (h.mono fun l mem => mem.resolve_left List.not_mem_nil)
  | cons item items ih =>
    refine (h.storeIn_likewise proc item.1 item.2).bind fun k k' agree => ?_
    refine (ih agree).mono fun l l' agree => agree.mono fun x mem => ?_
    rw [List.map_cons, List.mem_cons, or_assoc] at mem
    exact or_left_comm.1 mem

/-- The activation and the one with other locals have stored the same and agree on what
is needed from then on. -/
def Stored (size : Nat) (needed : LocalId → Prop) (a b c : Activation) : Prop :=
  ∃ k k', b = { a with locals := k } ∧ c = { a with locals := k' } ∧ Agree size needed k k'

theorem store_likewise (h : Agree size needed a.locals locals) (id : LocalId) (v : Value) :
    Likewise (Stored size (fun l => l = id ∨ needed l) a) (a.store id v)
      ({ a with locals }.store id v) := by
  refine (h.storeIn_likewise a.proc.id id v).bind fun k k' agree => ?_
  exact .ok ⟨k, k', rfl, rfl, agree⟩

theorem storeTo_likewise (h : Agree size needed a.locals locals) (dst : Option LocalId)
    (v : Value) :
    Likewise (Stored size (fun l => l ∈ dst ∨ needed l) a) (a.storeTo dst v)
      ({ a with locals }.storeTo dst v) := by
  cases dst with
  | none =>
    have same : ∀ l, l ∈ (none : Option LocalId) ∨ needed l → needed l :=
      fun l mem => mem.resolve_left nofun
    exact .ok ⟨a.locals, locals, rfl, rfl, h.mono same⟩
  | some id =>
    refine (h.store_likewise id v).mono fun b c stored => ?_
    obtain ⟨k, k', left, right, agree⟩ := stored
    refine ⟨k, k', left, right, agree.mono fun l mem => mem.imp_left fun here => ?_⟩
    exact (Option.some.inj here).symm

theorem restore_likewise (h : Agree size needed a.locals locals) (slots : List LocalId) :
    Likewise (fun b c => ∃ resumption,
        Stored size (fun l => l ∈ slots ∨ needed l) { a with resumption } b c)
      (a.restore slots) ({ a with locals }.restore slots) := by
  obtain ⟨proc, locals', resumption, block, rest⟩ := a
  unfold Activation.restore
  cases resumption with
  | none => exact .error _
  | some r =>
    obtain ⟨state, held, completion⟩ := r
    cases held with
    | none => exact .error _
    | some saved =>
      dsimp only
      by_cases length : saved.length ≠ slots.length
      · rw [if_pos length, if_pos length]
        exact .error _
      · rw [if_neg length, if_neg length]
        refine (h.storeAllIn_likewise proc.id (slots.zip saved)).bind fun k k' agree => ?_
        refine .ok ⟨_, k, k', rfl, rfl, agree.mono fun l mem => mem.imp_left fun here => ?_⟩
        rwa [List.map_fst_zip (by omega)]

end Agree

theorem Activation.takeCompletion_likewise (a : Activation) (locals : List Value) :
    Likewise (fun x y => ∃ completion resumption, x = (completion, { a with resumption }) ∧
        y = (completion, { a with locals, resumption }))
      a.takeCompletion ({ a with locals }.takeCompletion) := by
  unfold Activation.takeCompletion
  dsimp only
  split
  · split
    · exact .ok ⟨_, _, rfl, rfl⟩
    · exact .error _
  · exact .error _

/-- An activation in a block of a sound procedure whose liveness is known. -/
structure Activation.Analysed (live : Liveness) (a : Activation) : Prop where
  sound : a.proc.Sound
  solves : live.Solves a.proc
  block : a.block ∈ a.proc.blocks

/-! ## Machines that differ in dead locals -/

/-- What a caller still needs if its call may suspend: the locals that it saves, those that
the block behind the call reads, and those that the handler reads. -/
def Liveness.Kept (live : Liveness) (b : Block) (dst : Option LocalId) (save : List LocalId)
    (next : BlockId) (l : LocalId) : Prop :=
  l ∈ save ∨ l ∈ live.atStart next ∧ l ∉ dst ∨ l ∈ live.onRaise b

/-- The same is at work, or two activations that agree on what is live. -/
inductive Focus.Twins : Focus → Focus → Prop
  | same (focus : Focus) : Twins focus focus
  | run {live : Liveness} {a : Activation} {locals : List Value} {size : Nat}
      (known : a.Analysed live)
      (agree : Agree size (· ∈ live.before a.block a.rest) a.locals locals) :
    Twins (.run a) (.run { a with locals })

/-- The same activation waits, or two that agree on what they need once the call has
ended. -/
inductive Caller.Twins : Caller → Caller → Prop
  | same (caller : Caller) : Twins caller caller
  | plain {live : Liveness} {a : Activation} {locals : List Value} {size : Nat}
      {callee : ProcId} {dst : Option LocalId} (known : a.Analysed live)
      (agree : Agree size (live.Awaited a.block a.rest dst) a.locals locals) :
    Twins ⟨a, .plain callee dst⟩ ⟨{ a with locals }, .plain callee dst⟩
  | resumable {live : Liveness} {a : Activation} {locals : List Value} {size : Nat}
      {dst : Option LocalId} {state : StateId} {save : List LocalId} {next : BlockId}
      (known : a.Analysed live) (edge : next.index < a.proc.blocks.length)
      (agree : Agree size (live.Kept a.block dst save next) a.locals locals) :
    Twins ⟨a, .resumable dst state save next⟩ ⟨{ a with locals }, .resumable dst state save next⟩

namespace Config

/-- The same waits in both machines, but for dead locals. -/
structure Beside (c k : Config) : Prop where
  callers : List.Forall₂ Caller.Twins c.callers k.callers
  outer : c.outer = k.outer

/-- Two machines that are the same but for dead locals. -/
structure Twins (c k : Config) : Prop extends c.Beside k where
  focus : c.focus.Twins k.focus

end Config

/-- Two steps that lead to machines that are the same but for dead locals, or halt alike. -/
inductive Progress.Twins : Progress → Progress → Prop
  | running {c k : Config} (twins : c.Twins k) : Twins (.running c) (.running k)
  | halted (result : Except MachineFault Outcome) : Twins (.halted result) (.halted result)

theorem Likewise.progress {x y : Except MachineFault Config} (h : Likewise Config.Twins x y) :
    (Progress.ofExcept x).Twins (.ofExcept y) := by
  cases h with
  | ok twins => exact .running twins
  | error fault => exact .halted _

section Steps

variable {live : Liveness} {needed : LocalId → Prop} {a : Activation} {locals : List Value}
  {size : Nat} {c k : Config}

theorem Config.Beside.same (h : c.Beside k) (focus : Focus) :
    Config.Twins { c with focus } { k with focus } :=
  ⟨⟨h.callers, h.outer⟩, .same focus⟩

theorem Config.Beside.running (h : c.Beside k) (known : a.Analysed live)
    (agree : Agree size (· ∈ live.before a.block a.rest) a.locals locals) :
    (c.running a).Twins (k.running { a with locals }) :=
  ⟨⟨h.callers, h.outer⟩, .run known agree⟩

/-! ## The same activation in both machines -/

namespace Config.Beside

variable (beside : c.Beside k) (a)
include beside

theorem goto (id : BlockId) : Likewise Config.Twins (c.goto a id) (k.goto a id) :=
  .bind_eq rfl fun _ => .ok (beside.same _)

theorem raise (v : Value) : Likewise Config.Twins (c.raise a v) (k.raise a v) := by
  unfold Config.raise
  split
  · exact .bind_eq rfl fun b => beside.goto b _
  · exact .ok (beside.same _)

theorem complete (dst : Option LocalId) (completion : Completion) :
    Likewise Config.Twins (c.complete a dst completion) (k.complete a dst completion) := by
  cases completion with
  | value v => exact .bind_eq rfl fun _ => .ok (beside.same _)
  | exception v => exact beside.raise a v

theorem calling (awaiting : Awaiting) (target : ProcId) (args : List Value) :
    (c.calling a awaiting target args).Twins (k.calling a awaiting target args) :=
  ⟨⟨.cons (.same _) beside.callers, beside.outer⟩, .same _⟩

theorem afterStmt (text : Value → String) (s : Stmt) :
    Likewise Config.Twins (c.afterStmt text a s) (k.afterStmt text a s) := by
  cases s with
  | assign dst rvalue => exact .bind_eq rfl fun _ => beside.complete a _ _
  | call dst func args => exact .bind_eq rfl fun _ => .ok (beside.calling a _ _ _)
  | restore slots => exact .bind_eq rfl fun _ => .ok (beside.same _)
  | resume dst => exact .bind_eq rfl fun taken => beside.complete taken.2 _ _

theorem afterTerminator (t : Terminator) :
    Likewise Config.Twins (c.afterTerminator a t) (k.afterTerminator a t) := by
  cases t with
  | ret value =>
    cases value with
    | none => exact .ok (beside.same _)
    | some o => exact .bind_eq rfl fun _ => .ok (beside.same _)
  | goto target => exact beside.goto a target
  | branch cond thenBlock elseBlock =>
    refine .bind_eq rfl fun v => ?_
    cases v with
    | bool taken => exact beside.goto a _
    | _ => exact .error _
  | switch value cases fallback =>
    refine .bind_eq rfl fun v => ?_
    cases v with
    | int n => exact beside.goto a _
    | _ => exact .error _
  | throw value => exact .bind_eq rfl fun v => beside.raise a v
  | unreachable => exact .error _
  | dispatch fresh states => exact .bind_eq rfl fun id => beside.goto a id
  | suspendCall dst func args state save next =>
    exact .bind_eq rfl fun _ => .ok (beside.calling a _ _ _)

end Config.Beside

/-! ## Jumps -/

namespace Activation.Analysed

theorem goto (known : a.Analysed live) {id : BlockId} (lt : id.index < a.proc.blocks.length)
    (agree : Agree size (· ∈ live.atStart id) a.locals locals) (beside : c.Beside k) :
    Likewise Config.Twins (c.goto a id) (k.goto { a with locals } id) := by
  obtain ⟨d, block, found, rfl⟩ := known.sound.block?_of_lt lt
  rw [known.solves.atStart d block] at agree
  rw [Program.goto_eq found, Program.goto_eq (a := { a with locals }) found]
  have known : Activation.Analysed live { a with block := d, rest := d.statements } :=
    ⟨known.sound, known.solves, block⟩
  exact .ok (beside.running known agree)

theorem raise (known : a.Analysed live)
    (agree : Agree size (· ∈ live.onRaise a.block) a.locals locals) (beside : c.Beside k)
    (v : Value) : Likewise Config.Twins (c.raise a v) (k.raise { a with locals } v) := by
  unfold Config.raise
  cases handler : a.block.handler with
  | none => exact .ok (beside.same _)
  | some h =>
    refine (agree.store_likewise h.bind v).bind fun b b' stored => ?_
    obtain ⟨l, l', rfl, rfl, agree⟩ := stored
    have known' : Activation.Analysed live { a with locals := l } :=
      ⟨known.sound, known.solves, known.block⟩
    have lt := ((known.sound.blocks _ known.block).handler h handler).1
    refine known'.goto lt (agree.mono fun id mem => ?_) beside
    by_cases bound : id = h.bind
    · exact Or.inl bound
    · exact Or.inr (Liveness.mem_onRaise.2 ⟨h, handler, mem, bound⟩)

theorem complete (known : a.Analysed live) {dst : Option LocalId}
    (agree : Agree size (live.Awaited a.block a.rest dst) a.locals locals)
    (beside : c.Beside k) (completion : Completion) :
    Likewise Config.Twins (c.complete a dst completion)
      (k.complete { a with locals } dst completion) := by
  cases completion with
  | exception v => exact known.raise (agree.mono fun _ => Or.inr) beside v
  | value v =>
    refine (agree.storeTo_likewise dst v).bind fun b b' stored => ?_
    obtain ⟨l, l', rfl, rfl, agree⟩ := stored
    have known' : Activation.Analysed live { a with locals := l } :=
      ⟨known.sound, known.solves, known.block⟩
    exact .ok (beside.running known' (agree.mono fun _ => Liveness.mem_or_awaited))

/-! ## Statements and terminators -/

theorem afterStmt {s : Stmt} (text : Value → String) (known : a.Analysed live)
    (agree : Agree size (· ∈ live.before a.block (s :: a.rest)) a.locals locals)
    (beside : c.Beside k) :
    Likewise Config.Twins (c.afterStmt text a s) (k.afterStmt text { a with locals } s) := by
  have reads : ∀ id ∈ s.uses, id ∈ live.before a.block (s :: a.rest) :=
    fun id => Liveness.before_of_uses
  cases s with
  | assign dst rvalue =>
    refine .bind_eq (agree.compute_eq text reads) fun completion => ?_
    exact known.complete (agree.mono fun _ needed => needed.before rfl rfl) beside completion
  | call dst func args =>
    refine .bind_eq (agree.evaluateAll_eq reads) fun values => ?_
    have waits : Caller.Twins ⟨a, .plain func.target dst⟩
        ⟨{ a with locals }, .plain func.target dst⟩ :=
      .plain known (agree.mono fun _ needed => needed.before rfl rfl)
    exact .ok ⟨⟨.cons waits beside.callers, beside.outer⟩, .same _⟩
  | restore slots =>
    refine (agree.restore_likewise slots).bind fun b b' restored => ?_
    obtain ⟨resumption, l, l', rfl, rfl, agree⟩ := restored
    have known' : Activation.Analysed live { a with resumption, locals := l } :=
      ⟨known.sound, known.solves, known.block⟩
    refine .ok (beside.running known' (agree.mono fun id mem => ?_))
    by_cases stored : id ∈ slots
    · exact Or.inl stored
    · refine Or.inr ?_
      rw [Liveness.before_cons, Liveness.mem_stepBack]
      exact Or.inl ⟨mem, stored⟩
  | resume dst =>
    refine (a.takeCompletion_likewise locals).bind fun x y taken => ?_
    obtain ⟨completion, resumption, rfl, rfl⟩ := taken
    have known' : Activation.Analysed live { a with resumption } :=
      ⟨known.sound, known.solves, known.block⟩
    exact known'.complete (agree.mono fun _ needed => needed.before rfl rfl) beside completion

/-- The block that a dispatch goes to is one of its successors. -/
theorem dispatch_mem {fresh id : BlockId} {states : List (StateId × BlockId)}
    (went : a.dispatch fresh states = .ok id) :
    id ∈ (Terminator.dispatch fresh states).successors := by
  unfold Activation.dispatch at went
  split at went
  · cases went
    exact List.mem_cons_self
  · split at went
    · rename_i found
      cases went
      exact List.mem_cons_of_mem _ (List.mem_map_of_mem (List.mem_of_find?_eq_some found))
    · cases went

theorem afterTerminator (known : a.Analysed live)
    (agree : Agree size (· ∈ live.before a.block []) a.locals locals) (beside : c.Beside k) :
    Likewise Config.Twins (c.afterTerminator a a.block.terminator)
      (k.afterTerminator { a with locals } a.block.terminator) := by
  have sound := known.sound.blocks _ known.block
  rw [Liveness.before_nil] at agree
  have read : ∀ o : Operand, (∀ id ∈ o.local?, id ∈ a.block.terminator.uses) →
      a.evaluate o = { a with locals }.evaluate o := fun o reads =>
    agree.evaluate_eq fun id mem =>
      Liveness.mem_beforeTerminator.2 (Or.inr (Or.inl (reads id mem)))
  have jump : a.block.terminator.def? = none → ∀ id ∈ a.block.terminator.successors,
      Likewise Config.Twins (c.goto a id) (k.goto { a with locals } id) := by
    intro none id mem
    refine known.goto (sound.edges id mem) (agree.mono fun l start => ?_) beside
    refine Liveness.mem_beforeTerminator.2 (Or.inl ⟨Liveness.mem_normalOut.2 ⟨id, mem, start⟩, ?_⟩)
    rw [none]
    exact nofun
  have raised : a.block.terminator.canRaise = true →
      Agree size (· ∈ live.onRaise a.block) a.locals locals := fun raises =>
    agree.mono fun l mem => Liveness.mem_beforeTerminator.2 (Or.inr (Or.inr ⟨raises, mem⟩))
  cases last : a.block.terminator with
  | ret value =>
    cases value with
    | none => exact .ok (beside.same _)
    | some o =>
      refine .bind_eq (read o (by simp [last, Terminator.uses])) fun v => ?_
      exact .ok (beside.same _)
  | goto target => exact jump (by rw [last]; rfl) target (by simp [last, Terminator.successors])
  | branch cond thenBlock elseBlock =>
    refine .bind_eq (read cond (by simp [last, Terminator.uses])) fun v => ?_
    cases v with
    | bool taken =>
      refine jump (by rw [last]; rfl) _ ?_
      cases taken <;> simp [last, Terminator.successors]
    | _ => exact .error _
  | switch value cases fallback =>
    refine .bind_eq (read value (by simp [last, Terminator.uses])) fun v => ?_
    cases v with
    | int n =>
      refine jump (by rw [last]; rfl) _ ?_
      rw [last]
      exact Program.switchTarget_mem n cases fallback
    | _ => exact .error _
  | throw value =>
    refine .bind_eq (read value (by simp [last, Terminator.uses])) fun v => ?_
    exact known.raise (raised (by rw [last]; rfl)) beside v
  | unreachable => exact .error _
  | dispatch fresh states =>
    have edges := sound.edges
    show Likewise Config.Twins (a.dispatch fresh states >>= c.goto a)
      (a.dispatch fresh states >>= k.goto { a with locals })
    cases went : a.dispatch fresh states with
    | error fault => exact .error fault
    | ok id =>
      refine jump (by rw [last]; rfl) id ?_
      rw [last]
      exact dispatch_mem went
  | suspendCall dst func args state save next =>
    have values : a.evaluateAll args = { a with locals }.evaluateAll args := by
      refine agree.evaluateAll_eq fun id mem => ?_
      rw [last, Liveness.mem_beforeTerminator]
      exact Or.inr (Or.inl (List.mem_append_left _ mem))
    refine .bind_eq values fun values => ?_
    have edge : next.index < a.proc.blocks.length :=
      sound.edges next (by simp [last, Terminator.successors])
    have waits : Caller.Twins ⟨a, .resumable dst state save next⟩
        ⟨{ a with locals }, .resumable dst state save next⟩ := by
      refine .resumable known edge (agree.mono fun l kept => ?_)
      rw [last, Liveness.mem_beforeTerminator]
      rcases kept with saved | after | handled
      · exact Or.inr (Or.inl (List.mem_append_right _ saved))
      · refine Or.inl ⟨Liveness.mem_normalOut.2 ⟨next, ?_, after.1⟩, after.2⟩
        simp [last, Terminator.successors]
      · exact Or.inr (Or.inr ⟨rfl, handled⟩)
    exact .ok ⟨⟨.cons waits beside.callers, beside.outer⟩, .same _⟩

end Activation.Analysed

/-! ## The end of a call -/

/-- A caller goes on with the end of its call. -/
theorem Caller.Twins.afterCall {caller caller' : Caller} (h : caller.Twins caller')
    (beside : c.Beside k) (completion : Completion) :
    Likewise Config.Twins (c.afterCall caller completion) (k.afterCall caller' completion) := by
  cases h with
  | same =>
    obtain ⟨a, awaiting⟩ := caller
    cases awaiting with
    | plain callee dst => exact beside.complete a dst completion
    | resumable dst state save next =>
      cases completion with
      | value v => exact .bind_eq rfl fun b => beside.goto b next
      | exception v => exact beside.raise a v
  | plain known agree => exact known.complete agree beside completion
  | @resumable live a locals size dst state save next known edge agree =>
    cases completion with
    | exception v => exact known.raise (agree.mono fun _ raised => Or.inr (Or.inr raised)) beside v
    | value v =>
      refine (agree.storeTo_likewise dst v).bind fun b b' stored => ?_
      obtain ⟨l, l', rfl, rfl, agree⟩ := stored
      have known' : Activation.Analysed live { a with locals := l } :=
        ⟨known.sound, known.solves, known.block⟩
      refine known'.goto edge (agree.mono fun id start => ?_) beside
      by_cases stored : id ∈ dst
      · exact Or.inl stored
      · exact Or.inr (Or.inr (Or.inl ⟨start, stored⟩))

/-- A caller that gives up the worker saves the same frame. -/
theorem Caller.Twins.suspendCaller {σ : Type} {caller caller' : Caller}
    (h : caller.Twins caller') (beside : c.Beside k) :
    Drive.Tracks (σ := σ) Progress.Twins (c.suspendCaller caller) (k.suspendCaller caller') := by
  unfold Config.suspendCaller
  cases h with
  | same =>
    obtain ⟨a, awaiting⟩ := caller
    cases awaiting with
    | plain callee dst => exact .done (.halted _)
    | resumable dst state save next =>
      dsimp only
      cases a.save save with
      | error fault => exact .done (.halted _)
      | ok slots => exact .ask fun _ => .done (.running (beside.same _))
  | plain known agree => exact .done (.halted _)
  | @resumable live a locals size dst state save next known edge agree =>
    have saved : a.save save = { a with locals }.save save :=
      agree.save_eq fun id mem => Or.inl mem
    dsimp only
    rw [← saved]
    cases a.save save with
    | error fault => exact .done (.halted _)
    | ok slots => exact .ask fun _ => .done (.running (beside.same _))

theorem Config.Beside.finish {σ : Type} (beside : c.Beside k) (outcome : Outcome) :
    Drive.Tracks (σ := σ) Progress.Twins (c.finish outcome) (k.finish outcome) := by
  unfold Config.finish
  rw [← beside.outer]
  split
  · exact .done (.halted _)
  · exact .ask fun _ => .done (.halted _)
  · exact .ask fun _ => .done (.halted _)
  · exact .done (.running ⟨⟨beside.callers, rfl⟩, .same _⟩)

/-! ## Steps -/

theorem Config.Beside.perform {σ : Type} (beside : c.Beside k) (which : Primitive)
    (args : List Value) (again : Bool) :
    Drive.Tracks (σ := σ) Progress.Twins (c.perform which args again)
      (k.perform which args again) := by
  refine .bind_refl _ fun result => .done ?_
  cases result with
  | error fault => exact .halted _
  | ok outcome => exact .running (beside.same _)

/-- The end of a call goes to the callers, which are the same but for dead locals. -/
theorem Config.Beside.deliver {σ : Type} (program : Program) (beside : c.Beside k)
    (outcome : Outcome) :
    Drive.Tracks (σ := σ) Progress.Twins ((c.delivering outcome).step program)
      ((k.delivering outcome).step program) := by
  obtain ⟨focus, callers, outer⟩ := c
  obtain ⟨focus', callers', outer'⟩ := k
  obtain ⟨waiting, same⟩ := beside
  dsimp only at waiting same
  cases waiting with
  | nil => exact Config.Beside.finish ⟨.nil, same⟩ outcome
  | cons head rest =>
    cases outcome with
    | completed completion => exact .done (head.afterCall ⟨rest, same⟩ completion).progress
    | suspended => exact head.suspendCaller ⟨rest, same⟩

/-- A call or a second entry does not look at who waits for it. -/
theorem Config.Beside.step {σ : Type} (program : Program) (beside : c.Beside k)
    (focus : Focus) :
    Drive.Tracks (σ := σ) Progress.Twins (Config.step program { c with focus })
      (Config.step program { k with focus }) := by
  have ahead : Config.Beside { c with focus } { k with focus } := ⟨beside.callers, beside.outer⟩
  cases focus with
  | call target args =>
    cases named : Primitive.ofProc? target with
    | some which =>
      simp only [Config.step, named]
      exact ahead.perform which args false
    | none =>
      simp only [Config.step, named]
      refine .done (Likewise.progress ?_)
      unfold Config.entered
      cases program.procedure? target with
      | none => exact .error _
      | some proc =>
        dsimp only
        split
        · exact .bind_eq rfl fun a => .ok (ahead.same _)
        · exact .error _
  | reenter frame completion =>
    cases named : Primitive.ofProc? frame.proc with
    | some which =>
      simp only [Config.step, named]
      exact ahead.perform which frame.slots true
    | none =>
      simp only [Config.step, named]
      refine .done (Likewise.progress ?_)
      unfold Config.reentered
      cases program.procedure? frame.proc with
      | none => exact .error _
      | some proc =>
        dsimp only
        split
        · exact .bind_eq rfl fun a => .ok (ahead.same _)
        · exact .error _
  | run a =>
    cases next : a.rest with
    | nil =>
      simp only [Config.step, next]
      exact .done (ahead.afterTerminator a _).progress
    | cons s rest =>
      simp only [Config.step, next]
      exact .ask fun text => .done (ahead.afterStmt { a with rest } text s).progress
  | deliver outcome => exact beside.deliver program outcome

/-- Machines that are the same but for dead locals stay so, and ask for the same. -/
theorem Config.Twins.step {σ : Type} (program : Program) (h : c.Twins k) :
    Drive.Tracks (σ := σ) Progress.Twins (c.step program) (k.step program) := by
  obtain ⟨focus, callers, outer⟩ := c
  obtain ⟨focus', callers', outer'⟩ := k
  obtain ⟨beside, twins⟩ := h
  dsimp only at twins
  cases twins with
  | same => exact beside.step program focus
  | @run live a locals size known agree =>
    obtain ⟨proc, locals', resumption, block, rest⟩ := a
    cases rest with
    | nil => exact .done (known.afterTerminator agree beside).progress
    | cons s rest =>
      have past : Activation.Analysed live ⟨proc, locals', resumption, block, rest⟩ :=
        ⟨known.sound, known.solves, known.block⟩
      exact .ask fun text => .done (past.afterStmt text agree beside).progress

/-- Machines that are the same but for dead locals do the same. -/
theorem Config.Twins.run_eq {σ : Type} (program : Program) (fuel : Nat) (h : c.Twins k) :
    (c.run program fuel : Drive σ (Except MachineFault Outcome)) = k.run program fuel := by
  induction fuel generalizing c k with
  | zero => rfl
  | succ fuel ih =>
    rw [Config.run_succ, Config.run_succ]
    refine ((h.step program).bind fun p p' same => ?_).eq
    cases same with
    | running twins =>
      dsimp only
      rw [ih twins]
      exact .refl _
    | halted result => exact .refl _

end Steps

/-- Dead locals do not influence a run.  Two activations of a valid procedure that are about
to run the same block, with as many locals, which agree on what is live at the start of the
block, make the same drive: the same requests to the runtime with the same values, saved
frames included, and the same outcome or fault after every number of steps. -/
theorem Liveness.run_eq_of_atStart {p : Procedure} (valid : p.validate = .ok ())
    (body : p.hasBody = true) :
    ∃ live, compute? p = some live ∧
      ∀ (program : Program) (id : BlockId) (b : Block), p.block? id = some b →
      ∀ locals locals' : List Value, locals.length = locals'.length →
      (∀ l ∈ live.atStart id, locals[l.index]? = locals'[l.index]?) →
      ∀ (σ : Type) (fuel : Nat) (resumption : Option Resumption) (callers : List Caller)
        (outer : Option (List Frame)),
        (Config.run program fuel
            ⟨.run ⟨p, locals, resumption, b, b.statements⟩, callers, outer⟩ :
          Drive σ (Except MachineFault Outcome)) =
          Config.run program fuel
            ⟨.run ⟨p, locals', resumption, b, b.statements⟩, callers, outer⟩ := by
  have sound := Procedure.sound_of_validate valid body
  obtain ⟨live, computed, solves⟩ := compute?_eq_some sound
  refine ⟨live, computed, fun program id b found locals locals' length same σ fuel resumption
    callers outer => ?_⟩
  have block : b ∈ p.blocks := List.mem_of_getElem? found
  have here : b.id = id := BlockId.index_injective (sound.numbered _ _ found)
  rw [← here, solves.atStart b block] at same
  have known : Activation.Analysed live ⟨p, locals, resumption, b, b.statements⟩ :=
    ⟨sound, solves, block⟩
  have agree : Agree locals.length (· ∈ live.before b b.statements) locals locals' :=
    ⟨rfl, length.symm, same⟩
  have twins : Config.Twins ⟨.run ⟨p, locals, resumption, b, b.statements⟩, callers, outer⟩
      ⟨.run ⟨p, locals', resumption, b, b.statements⟩, callers, outer⟩ :=
    ⟨⟨List.forall₂_same.2 fun caller _ => .same caller, rfl⟩, .run known agree⟩
  exact twins.run_eq program fuel

/-- Only the argument of `keeper` is live when it makes its call; what is in its other locals
comes to nothing, although the call suspends. -/
theorem Liveness.run_eq_keeper : (keeper [(⟨1⟩, ⟨2⟩)]).validate = .ok () ∧
    (keeper [(⟨1⟩, ⟨2⟩)]).hasBody = true ∧
    (Config.run ⟨[keeper [(⟨1⟩, ⟨2⟩)]]⟩ 20
        ⟨.run ⟨keeper [(⟨1⟩, ⟨2⟩)], [.int 42, .unit, .bool true], none, keeperCall, []⟩, [], none⟩ :
      Drive Unit (Except MachineFault Outcome)) =
      Config.run ⟨[keeper [(⟨1⟩, ⟨2⟩)]]⟩ 20
        ⟨.run ⟨keeper [(⟨1⟩, ⟨2⟩)], [.int 42, .int 7, .unit], none, keeperCall, []⟩, [], none⟩ := by
  have valid : (keeper [(⟨1⟩, ⟨2⟩)]).validate = .ok () := by decide
  have body : (keeper [(⟨1⟩, ⟨2⟩)]).hasBody = true := by decide
  obtain ⟨live, computed, same⟩ := Liveness.run_eq_of_atStart valid body
  have found : Liveness.compute? (keeper [(⟨1⟩, ⟨2⟩)]) =
      some ⟨[[⟨0⟩], [⟨0⟩], [], [⟨0⟩]], [[⟨0⟩], [⟨0⟩], [⟨0⟩], []]⟩ := by decide
  obtain rfl := Option.some.inj (computed.symm.trans found)
  refine ⟨valid, body, same _ ⟨1⟩ keeperCall rfl _ _ rfl ?_ Unit 20 none [] none⟩
  intro l mem
  obtain rfl := List.mem_singleton.1 mem
  rfl

end Resumable
