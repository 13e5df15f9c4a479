import Resumable.Machine.Body
import Resumable.Proofs.Machine.Waiting
import Resumable.Proofs.Task.Drive
import Resumable.Proofs.Weave.Dropped
import Resumable.Proofs.Weave.Successors

/-!
# What an activation comes to after it was entered

`Config.Lasts` is the stretch of a run in which one activation does not end and none of its
suspending calls returns normally; other activations may come and go above it.

* `Config.Next` lists what one step of the machine can do, and `Config.Moves` where the
  activation at work is after a step of its own or the end of a call.
* `OnWay` is the invariant of the stretch: the activation stands in a block to which a walk
  leads from the block at which it began.  `OnWay.next` is the step and `OnWay.lasts` the
  run.
* `Config.Enters` is how an activation begins.  Its first step is the dispatcher, which
  leads to the block of the state (`Assembled.dispatched`).

`Procedure.weave_successors` puts this together with what the records of a woven procedure
list.
-/

namespace Resumable

namespace Config

/-! ## One step -/

/-- One step of the machine goes on with another configuration, whatever tasks share
meanwhile. -/
def Leads (program : Program) (c d : Config) : Prop :=
  ∃ f f' m m', Drive.Runs (c.step program : Drive Machine Progress) f m
    (.finished (.running d)) f' m'

/-- What a step of the machine can do when it goes on. -/
inductive Next (program : Program) (c : Config) : Config → Prop
  | entered {target : ProcId} {args : List Value} {d : Config} (focus : c.focus = .call target args)
      (ok : c.entered program target args = .ok d) : Next program c d
  | reentered {frame : Frame} {completion : Completion} {d : Config}
      (focus : c.focus = .reenter frame completion)
      (ok : c.reentered program frame completion = .ok d) : Next program c d
  | performed {outcome : Outcome} (idle : ∀ a, c.focus ≠ .run a)
      (begins : ∀ outcome, c.focus ≠ .deliver outcome) : Next program c (c.delivering outcome)
  | statement {a : Activation} {s : Stmt} {rest : List Stmt} {text : Value → String} {d : Config}
      (focus : c.focus = .run a) (left : a.rest = s :: rest)
      (ok : c.afterStmt text { a with rest } s = .ok d) : Next program c d
  | terminator {a : Activation} {d : Config} (focus : c.focus = .run a) (left : a.rest = [])
      (ok : c.afterTerminator a a.block.terminator = .ok d) : Next program c d
  | frame {completion : Completion} {frame : Frame} {frames : List Frame}
      (focus : c.focus = .deliver (.completed completion)) (alone : c.callers = []) :
    Next program c { focus := .reenter frame completion, callers := [], outer := some frames }
  | returned {caller : Caller} {callers : List Caller} {completion : Completion} {d : Config}
      (focus : c.focus = .deliver (.completed completion)) (waits : c.callers = caller :: callers)
      (ok : { c with callers }.afterCall caller completion = .ok d) : Next program c d
  | left {caller : Caller} {callers : List Caller} (focus : c.focus = .deliver .suspended)
      (waits : c.callers = caller :: callers) :
    Next program c ({ c with callers }.delivering .suspended)

variable {program : Program} {c d e : Config}

theorem runs_ofExcept {r : Except MachineFault Config} {f f' : Fiber} {m m' : Machine}
    (run : Drive.Runs (.done (.ofExcept r) : Drive Machine Progress) f m
      (.finished (.running d)) f' m') : r = .ok d := by
  cases r with
  | error fault => cases run
  | ok c => cases run; rfl

theorem Leads.next (h : c.Leads program d) : c.Next program d := by
  obtain ⟨f, f', m, m', run⟩ := h
  unfold step at run
  have performs : ∀ (p : Primitive) (args : List Value) (again : Bool),
      Drive.Runs (c.perform p args again : Drive Machine Progress) f m
        (.finished (.running d)) f' m' → ∃ outcome, d = c.delivering outcome := by
    intro p args again run
    rcases Drive.Runs.bind_cases run with ⟨r, f₁, m₁, -, last⟩ | ⟨message, ends, -⟩ | ⟨ends, -⟩
    · cases r with
      | error fault => cases last
      | ok outcome => cases last; exact ⟨outcome, rfl⟩
    · cases ends
    · cases ends
  cases focus : c.focus with
  | call target args =>
    simp only [focus] at run
    split at run
    · obtain ⟨outcome, rfl⟩ := performs _ _ _ run
      exact .performed (by simp [focus]) (by simp [focus])
    · exact .entered focus (runs_ofExcept run)
  | reenter frame completion =>
    simp only [focus] at run
    split at run
    · obtain ⟨outcome, rfl⟩ := performs _ _ _ run
      exact .performed (by simp [focus]) (by simp [focus])
    · exact .reentered focus (runs_ofExcept run)
  | run a =>
    simp only [focus] at run
    split at run
    · rename_i s rest left
      rcases Drive.Runs.bind_cases run with ⟨text, f₁, m₁, -, last⟩ | ⟨message, ends, -⟩ |
        ⟨ends, -⟩
      · exact .statement focus left (runs_ofExcept last)
      · cases ends
      · cases ends
    · rename_i left
      exact .terminator focus left (runs_ofExcept run)
  | deliver outcome =>
    simp only [focus] at run
    cases callers : c.callers with
    | nil =>
      simp only [callers, finish] at run
      split at run
      · cases run
      · rcases Drive.Runs.bind_cases run with ⟨u, f₁, m₁, -, last⟩ | ⟨message, ends, -⟩ |
          ⟨ends, -⟩
        · cases last
        · cases ends
        · cases ends
      · rcases Drive.Runs.bind_cases run with ⟨u, f₁, m₁, -, last⟩ | ⟨message, ends, -⟩ |
          ⟨ends, -⟩
        · cases last
        · cases ends
        · cases ends
      · cases run
        exact .frame focus callers
    | cons caller callers' =>
      simp only [callers] at run
      cases outcome with
      | completed completion => exact .returned focus callers (runs_ofExcept run)
      | suspended =>
        simp only [suspendCaller] at run
        split at run
        · cases run
        · split at run
          · cases run
          · rcases Drive.Runs.bind_cases run with ⟨u, f₁, m₁, -, last⟩ | ⟨message, ends, -⟩ |
              ⟨ends, -⟩
            · cases last
              exact .left focus callers
            · cases ends
            · cases ends

/-! ## The activation at work -/

/-- What becomes of an activation of a procedure that stands in a block: it stays there, goes
along an edge of a walk, ends, or waits for a call. -/
inductive Moves (c : Config) (p : Procedure) (b : Block) : Config → Prop
  | stays {a : Activation} (proc : a.proc = p) (block : a.block = b) : Moves c p b (c.running a)
  | enters {a : Activation} {id : BlockId} (proc : a.proc = p) (edge : id ∈ b.walkEdges)
      (found : p.block? id = some a.block) : Moves c p b (c.running a)
  | ends {completion : Completion} : Moves c p b (c.delivering (.completed completion))
  | waits {a : Activation} {awaiting : Awaiting} {target : ProcId} {args : List Value}
      (proc : a.proc = p) (block : a.block = b) : Moves c p b (c.calling a awaiting target args)

end Config

namespace Activation

variable {a a' : Activation} {p : Procedure} {locals : List Value} {r : Option Resumption}
  {id : BlockId}

theorem atBlock_eq_ok (h : atBlock p locals r id = .ok a) :
    a.proc = p ∧ a.resumption = r ∧ p.block? id = some a.block ∧ a.rest = a.block.statements := by
  unfold atBlock at h
  cases found : p.block? id with
  | none => simp [found] at h
  | some b =>
    simp only [found] at h
    cases h
    exact ⟨rfl, rfl, rfl, rfl⟩

theorem store_eq_ok {local' : LocalId} {v : Value} (h : a.store local' v = .ok a') :
    a'.proc = a.proc ∧ a'.block = a.block := by
  obtain ⟨locals, -, last⟩ := Except.bind_eq_ok_iff.1 h
  cases last
  exact ⟨rfl, rfl⟩

theorem storeTo_eq_ok {dst : Option LocalId} {v : Value} (h : a.storeTo dst v = .ok a') :
    a'.proc = a.proc ∧ a'.block = a.block := by
  cases dst with
  | none => cases h; exact ⟨rfl, rfl⟩
  | some _ => exact store_eq_ok h

theorem restore_eq_ok {slots : List LocalId} (h : a.restore slots = .ok a') :
    a'.proc = a.proc ∧ a'.block = a.block := by
  unfold restore at h
  split at h
  · split at h
    · split at h
      · cases h
      · obtain ⟨locals, -, last⟩ := Except.bind_eq_ok_iff.1 h
        cases last
        exact ⟨rfl, rfl⟩
    · cases h
  · cases h

theorem takeCompletion_eq_ok {completion : Completion}
    (h : a.takeCompletion = .ok (completion, a')) : a'.proc = a.proc ∧ a'.block = a.block := by
  unfold takeCompletion at h
  split at h
  · split at h
    · cases h; exact ⟨rfl, rfl⟩
    · cases h
  · cases h

end Activation

namespace Config

variable {program : Program} {c d e : Config} {a a' : Activation} {p : Procedure} {b : Block}

theorem moves_goto {id : BlockId} (proc : a.proc = p) (edge : id ∈ b.walkEdges)
    (ok : c.goto a id = .ok d) : c.Moves p b d := by
  obtain ⟨a', enters, last⟩ := Except.bind_eq_ok_iff.1 ok
  cases last
  obtain ⟨proc', -, found, -⟩ := Activation.atBlock_eq_ok enters
  exact .enters (proc'.trans proc) edge (proc ▸ found)

theorem moves_raise {v : Value} (proc : a.proc = p) (block : a.block = b)
    (ok : c.raise a v = .ok d) : c.Moves p b d := by
  unfold raise at ok
  cases handler : a.block.handler with
  | none =>
    rw [handler] at ok
    cases ok
    exact .ends
  | some h =>
    rw [handler] at ok
    obtain ⟨a', stores, goes⟩ := Except.bind_eq_ok_iff.1 ok
    have same := Activation.store_eq_ok stores
    have edge : h.target ∈ b.walkEdges :=
      Procedure.mem_block_walkEdges.2 (Or.inl ⟨h, block ▸ handler, rfl⟩)
    exact moves_goto (same.1.trans proc) edge goes

theorem moves_complete {dst : Option LocalId} {completion : Completion} (proc : a.proc = p)
    (block : a.block = b) (ok : c.complete a dst completion = .ok d) : c.Moves p b d := by
  cases completion with
  | value v =>
    obtain ⟨a', stores, last⟩ := Except.bind_eq_ok_iff.1 ok
    cases last
    have same := Activation.storeTo_eq_ok stores
    exact .stays (same.1.trans proc) (same.2.trans block)
  | exception v => exact moves_raise proc block ok

theorem moves_afterStmt {text : Value → String} {s : Stmt} (proc : a.proc = p)
    (block : a.block = b) (ok : c.afterStmt text a s = .ok d) : c.Moves p b d := by
  cases s with
  | assign dst rvalue =>
    obtain ⟨completion, -, completes⟩ := Except.bind_eq_ok_iff.1 ok
    exact moves_complete proc block completes
  | call dst func args =>
    obtain ⟨values, -, last⟩ := Except.bind_eq_ok_iff.1 ok
    cases last
    exact .waits proc block
  | restore slots =>
    obtain ⟨a', restores, last⟩ := Except.bind_eq_ok_iff.1 ok
    cases last
    have same := Activation.restore_eq_ok restores
    exact .stays (same.1.trans proc) (same.2.trans block)
  | resume dst =>
    obtain ⟨⟨completion, a'⟩, takes, completes⟩ := Except.bind_eq_ok_iff.1 ok
    have same := Activation.takeCompletion_eq_ok takes
    exact moves_complete (same.1.trans proc) (same.2.trans block) completes

theorem dispatch_mem {fresh : BlockId} {arms : List (StateId × BlockId)} {id : BlockId}
    (h : a.dispatch fresh arms = .ok id) : id ∈ fresh :: arms.map Prod.snd := by
  unfold Activation.dispatch at h
  split at h
  · cases h; exact List.mem_cons_self
  · split at h
    · rename_i found
      cases h
      exact List.mem_cons_of_mem _ (List.mem_map_of_mem (List.mem_of_find?_eq_some found))
    · cases h

theorem switchTarget_mem (n : Int64) (cases' : List (Int64 × BlockId)) (fallback : BlockId) :
    switchTarget n cases' fallback ∈ cases'.map Prod.snd ++ [fallback] := by
  unfold switchTarget
  split
  · rename_i found
    exact List.mem_append_left _ (List.mem_map_of_mem (List.mem_of_find?_eq_some found))
  · exact List.mem_append_right _ (by simp)

theorem moves_afterTerminator (proc : a.proc = p) (block : a.block = b)
    (ok : c.afterTerminator a b.terminator = .ok d) : c.Moves p b d := by
  have edge : ∀ {id}, b.suspendState? = none → id ∈ b.terminator.successors → id ∈ b.walkEdges :=
    fun goesOn mem => Procedure.mem_block_walkEdges.2 (Or.inr ⟨goesOn, mem⟩)
  unfold Block.suspendState? at edge
  cases last : b.terminator with
  | ret value =>
    rw [last] at ok
    cases value with
    | none => cases ok; exact .ends
    | some o =>
      obtain ⟨v, -, ends⟩ := Except.bind_eq_ok_iff.1 ok
      cases ends
      exact .ends
  | goto target =>
    rw [last] at ok edge
    exact moves_goto proc (edge rfl (by simp [Terminator.successors])) ok
  | branch cond thenBlock elseBlock =>
    rw [last] at ok edge
    obtain ⟨v, -, goes⟩ := Except.bind_eq_ok_iff.1 ok
    cases v with
    | bool taken =>
      refine moves_goto proc (edge rfl ?_) goes
      cases taken <;> simp [Terminator.successors]
    | _ => cases goes
  | switch value cases' fallback =>
    rw [last] at ok edge
    obtain ⟨v, -, goes⟩ := Except.bind_eq_ok_iff.1 ok
    cases v with
    | int n => exact moves_goto proc (edge rfl (switchTarget_mem n cases' fallback)) goes
    | _ => cases goes
  | throw value =>
    rw [last] at ok
    obtain ⟨v, -, raises⟩ := Except.bind_eq_ok_iff.1 ok
    exact moves_raise proc block raises
  | unreachable =>
    rw [last] at ok
    cases ok
  | dispatch fresh states =>
    rw [last] at ok edge
    obtain ⟨id, dispatches, goes⟩ := Except.bind_eq_ok_iff.1 ok
    exact moves_goto proc (edge rfl (dispatch_mem dispatches)) goes
  | suspendCall dst func args state save next =>
    rw [last] at ok
    obtain ⟨values, -, waits⟩ := Except.bind_eq_ok_iff.1 ok
    cases waits
    exact .waits proc block

/-- The end of a call goes along a normal edge only if the call returned normally from a
suspending call. -/
theorem moves_afterCall {caller : Caller} {completion : Completion}
    (proc : caller.activation.proc = p) (block : caller.activation.block = b)
    (unreturned : ∀ dst state save next v, caller.awaiting = .resumable dst state save next →
      completion ≠ .value v)
    (ok : c.afterCall caller completion = .ok d) : c.Moves p b d := by
  unfold afterCall at ok
  split at ok
  · exact moves_complete proc block ok
  · rename_i waits
    exact absurd rfl (unreturned _ _ _ _ _ waits)
  · exact moves_raise proc block ok

/-! ## Stretches -/

/-- The activation over some callers has not ended: it is at work, or waits for a call. -/
inductive Carries (base : List Caller) (c : Config) : Activation → Prop
  | runs {a : Activation} (focus : c.focus = .run a) (stack : c.callers = base) : Carries base c a
  | waits {inner : List Caller} {caller : Caller} (stack : c.callers = inner ++ caller :: base) :
    Carries base c caller.activation

/-- A suspending call of the activation over some callers returns normally in the next step. -/
def Returns (base : List Caller) (c : Config) : Prop :=
  ∃ a dst state save next v, c.callers = ⟨a, .resumable dst state save next⟩ :: base ∧
    c.focus = .deliver (.completed (.value v))

/-- A stretch of a run in which the activation over some callers does not end and none of its
suspending calls returns normally. -/
inductive Lasts (program : Program) (base : List Caller) (c : Config) : Config → Prop
  | here : Lasts program base c c
  | step {d e : Config} {a : Activation} (earlier : Lasts program base c d)
      (unreturned : ¬ d.Returns base) (leads : d.Leads program e) (carries : e.Carries base a) :
    Lasts program base c e

/-- The activation over some callers is about to execute a suspending call with a state. -/
structure Suspends (base : List Caller) (c : Config) (a : Activation) (state : StateId) :
    Prop where
  focus : c.focus = .run a
  stack : c.callers = base
  ready : a.rest = []
  call : a.block.suspendState? = some state

/-- A procedure is entered at a state: it is called, or a frame with the state is entered
again. -/
inductive Enters (program : Program) (p : Procedure) (c : Config) : StateId → Config → Prop
  | fresh {target : ProcId} {args : List Value} {d : Config} {a : Activation}
      (focus : c.focus = .call target args) (leads : c.Leads program d) (runs : d.focus = .run a)
      (proc : a.proc = p) : Enters program p c .entry d
  | resumed {frame : Frame} {completion : Completion} {d : Config} {a : Activation}
      (focus : c.focus = .reenter frame completion) (leads : c.Leads program d)
      (runs : d.focus = .run a) (proc : a.proc = p) : Enters program p c frame.state d

variable {base : List Caller}

/-- A part of a step that asks for nothing puts one caller on top of the others at most. -/
theorem Inside.callers (h : c.Inside (.ok d)) :
    d.callers = c.callers ∨ ∃ x, d.callers = x :: c.callers := by
  cases h with
  | running => exact Or.inl rfl
  | completed => exact Or.inl rfl
  | calling => exact Or.inr ⟨_, rfl⟩

/-- Over some callers there is one activation at most. -/
theorem Carries.unique (h : c.Carries base a) (h' : c.Carries base a') : a = a' := by
  have apart : ∀ {inner : List Caller} {caller : Caller}, base ≠ inner ++ caller :: base := by
    intro inner caller same
    have length := congrArg List.length same
    rw [List.length_append, List.length_cons] at length
    omega
  cases h with
  | runs focus stack =>
    cases h' with
    | runs focus' _ => cases focus.symm.trans focus'; rfl
    | waits stack' => exact absurd (stack.symm.trans stack') apart
  | @waits inner caller stack =>
    cases h' with
    | runs _ stack' => exact absurd (stack'.symm.trans stack) apart
    | @waits inner' caller' stack' =>
      have split := stack.symm.trans stack'
      have lengths : inner.length = inner'.length := by
        have length := congrArg List.length split
        rw [List.length_append, List.length_append, List.length_cons, List.length_cons] at length
        omega
      have tails := (List.append_inj split lengths).2
      rw [(List.cons.inj tails).1]

theorem Carries.atop {caller : Caller} (stack : c.callers = caller :: base) :
    c.Carries base caller.activation :=
  @Carries.waits base c [] caller stack

/-- A configuration without the activation has lost it. -/
theorem not_carries (stack : c.callers = base) (idle : ∀ a, c.focus ≠ .run a) :
    ¬ c.Carries base a := by
  intro h
  cases h with
  | runs focus _ => exact idle _ focus
  | waits stack' =>
    have length := congrArg List.length (stack.symm.trans stack')
    rw [List.length_append, List.length_cons] at length
    omega

end Config

/-! ## On the way -/

/-- An activation of a procedure stands in a block to which a walk leads. -/
structure OnWay (w : Procedure) (start : BlockId) (a : Activation) : Prop where
  proc : a.proc = w
  way : ∃ id, Relation.ReflTransGen w.Passes start id ∧ w.block? id = some a.block

namespace OnWay

variable {program : Program} {base : List Caller} {c d e : Config} {a a' : Activation}
  {w : Procedure} {start : BlockId}

theorem same (h : OnWay w start a) (proc : a'.proc = a.proc) (block : a'.block = a.block) :
    OnWay w start a' :=
  ⟨proc.trans h.proc, by rw [block]; exact h.way⟩

/-- An activation that has moved and has not ended is on the way still. -/
theorem moved (h : OnWay w start a) (stack : d.callers = base) (moves : d.Moves a.proc a.block e)
    (carries : e.Carries base a') : OnWay w start a' := by
  cases moves with
  | stays proc block => exact carries.unique (.runs rfl stack) ▸ h.same proc block
  | @enters b id proc edge found =>
    have entered : OnWay w start b := by
      obtain ⟨last, way, here⟩ := h.way
      refine ⟨proc.trans h.proc, id, way.tail (Procedure.mem_walkEdges.1 ?_), h.proc ▸ found⟩
      unfold Procedure.walkEdges
      rw [here]
      exact edge
    exact carries.unique (.runs rfl stack) ▸ entered
  | ends =>
    refine absurd carries (Config.not_carries stack fun b focus => ?_)
    simp [Config.delivering] at focus
  | @waits b awaiting target args proc block =>
    have stack : (d.calling b awaiting target args).callers = ⟨b, awaiting⟩ :: base :=
      congrArg _ stack
    exact carries.unique (.atop stack) ▸ h.same proc block

/-- While the activation waits below other callers, a step leaves it as it is. -/
theorem below (h : OnWay w start a) (carries : e.Carries base a') {inner : List Caller}
    {caller : Caller} (own : caller.activation = a) (stack : e.callers = inner ++ caller :: base) :
    OnWay w start a' := by
  rw [carries.unique (.waits stack), own]
  exact h

/-- One step of a stretch. -/
theorem next (h : OnWay w start a) (here : d.Carries base a) (unreturned : ¬ d.Returns base)
    (next : d.Next program e) (carries : e.Carries base a') : OnWay w start a' := by
  cases here with
  | runs focus stack =>
    cases next with
    | @statement _ s rest text _ focus' _ ok =>
      cases focus.symm.trans focus'
      have passed : OnWay w start { a with rest } := h.same rfl rfl
      exact passed.moved stack (Config.moves_afterStmt rfl rfl ok) carries
    | terminator focus' _ ok =>
      cases focus.symm.trans focus'
      exact h.moved stack (Config.moves_afterTerminator rfl rfl ok) carries
    | performed idle _ => exact absurd focus (idle _)
    | entered focus' _ => cases focus.symm.trans focus'
    | reentered focus' _ => cases focus.symm.trans focus'
    | frame focus' _ => cases focus.symm.trans focus'
    | returned focus' _ _ => cases focus.symm.trans focus'
    | left focus' _ => cases focus.symm.trans focus'
  | @waits inner caller stack =>
    -- what is below the activation at work stays as it is
    have kept : ∀ {inner : List Caller}, (e.callers = inner ++ caller :: base ∨
        ∃ x, e.callers = x :: (inner ++ caller :: base)) → OnWay w start a' := by
      rintro inner (same | ⟨x, pushed⟩)
      · exact h.below carries rfl same
      · exact h.below carries rfl (pushed.trans (List.cons_append ..).symm)
    cases next with
    | @entered target args _ focus ok =>
      exact kept (stack ▸ (ok ▸ Config.inside_entered program target args).callers)
    | @reentered frame completion _ focus ok =>
      exact kept (stack ▸ (ok ▸ Config.inside_reentered program frame completion).callers)
    | performed _ _ => exact kept (Or.inl stack)
    | @statement b s rest text _ focus left ok =>
      exact kept (stack ▸ (ok ▸ Config.inside_afterStmt text s).callers)
    | @terminator b _ focus left ok =>
      exact kept (stack ▸ (ok ▸ Config.inside_afterTerminator b.block.terminator).callers)
    | frame focus alone => simp [stack] at alone
    | @returned other callers completion _ focus waits ok =>
      cases inner with
      | nil =>
        cases stack.symm.trans waits
        refine h.moved (d := { d with callers := base }) rfl
          (Config.moves_afterCall rfl rfl ?_ ok) carries
        rintro dst state save following v awaiting rfl
        exact unreturned ⟨_, dst, state, save, following, v, by rw [stack, ← awaiting]; rfl, focus⟩
      | cons x inner =>
        cases stack.symm.trans waits
        exact kept (ok ▸ Config.inside_afterCall _ completion).callers
    | @left other callers focus waits =>
      cases inner with
      | nil =>
        cases stack.symm.trans waits
        refine absurd carries (Config.not_carries rfl fun b focus => ?_)
        simp [Config.delivering] at focus
      | cons x inner =>
        cases stack.symm.trans waits
        exact kept (Or.inl rfl)

/-- Whatever a stretch comes to after its first step is on the way. -/
theorem lasts {c₀ : Config} (first : ∀ d a, c₀.Next program d → d.Carries base a → OnWay w start a)
    (lasts : c₀.Lasts program base d) :
    d = c₀ ∨ ∃ a, d.Carries base a ∧ OnWay w start a := by
  induction lasts with
  | here => exact Or.inl rfl
  | @step d e b _ unreturned leads carries ih =>
    rcases ih with rfl | ⟨a, here, way⟩
    · exact Or.inr ⟨b, carries, first e b leads.next carries⟩
    · exact Or.inr ⟨b, carries, way.next here unreturned leads.next carries⟩

end OnWay

/-! ## Entries -/

/-- A call leads to an activation at the entry of the procedure that is called. -/
theorem Config.entered_eq_ok {program : Program} {c d : Config} {target : ProcId}
    {args : List Value} (ok : c.entered program target args = .ok d) :
    ∃ p locals a, Activation.atBlock p locals none p.entryBlock = .ok a ∧ d = c.running a := by
  unfold entered at ok
  split at ok
  · cases ok
  · rename_i p _
    split at ok
    · obtain ⟨a, fresh, last⟩ := Except.bind_eq_ok_iff.1 ok
      unfold Activation.fresh at fresh
      split at fresh
      · cases fresh
      · obtain ⟨locals, -, starts⟩ := Except.bind_eq_ok_iff.1 fresh
        cases last
        exact ⟨p, locals, a, starts, rfl⟩
    · cases ok

/-- The second entry into a procedure leads to its entry as well, with the state of the
frame. -/
theorem Config.reentered_eq_ok {program : Program} {c d : Config} {frame : Frame}
    {completion : Completion} (ok : c.reentered program frame completion = .ok d) :
    ∃ p locals r a, Activation.atBlock p locals (some r) p.entryBlock = .ok a ∧
      r.state = frame.state ∧ d = c.running a := by
  unfold reentered at ok
  split at ok
  · cases ok
  · rename_i p _
    split at ok
    · obtain ⟨a, resumed, last⟩ := Except.bind_eq_ok_iff.1 ok
      cases last
      exact ⟨p, _, _, a, resumed, rfl, rfl⟩
    · cases ok

/-- An activation of a woven procedure that is about to dispatch, and the dispatcher leads to
one block only. -/
structure Dispatches (w : Procedure) (start : BlockId) (a : Activation) : Prop where
  proc : a.proc = w
  rest : a.rest = []
  leads : ∃ fresh arms, a.block.terminator = .dispatch fresh arms ∧
    ∀ id, a.dispatch fresh arms = .ok id → id = start

namespace Assembled

variable {program : Program} {p w : Procedure} {live : Liveness} {cut : Cut} {c d : Config}
  {a : Activation} {st : ResumptionState}

theorem starts (h : Assembled p live cut w) {locals : List Value} {r : Option Resumption}
    (ok : Activation.atBlock w locals r w.entryBlock = .ok a) :
    a.proc = w ∧ a.resumption = r ∧ a.rest = [] ∧
      a.block.terminator = .dispatch p.entryBlock (cut.states.map fun s => (s.id, s.block)) := by
  obtain ⟨proc, resumption, found, rest⟩ := Activation.atBlock_eq_ok ok
  have block := Option.some.inj (h.block?_entry.symm.trans found)
  rw [← block] at rest
  exact ⟨proc, resumption, rest, by rw [← block]; rfl⟩

/-- The record of fresh entry begins where the original procedure does. -/
theorem block_of_entry (h : Assembled p live cut w) (listed : st ∈ w.states)
    (entry : st.id = .entry) : st.block = p.entryBlock := by
  rcases (h.record_cases listed).1 with ⟨-, block⟩ | ⟨s, mem, same, -⟩
  · exact block
  · exact absurd (same.symm.trans entry) (h.ne_entry mem)

/-- The arm for a state leads to the block of its record. -/
theorem block_of_arm (h : Assembled p live cut w) (listed : st ∈ w.states)
    {state : StateId} {block : BlockId}
    (arm : (cut.states.map fun s => (s.id, s.block)).find? (·.1 == st.id) = some (state, block)) :
    block = st.block := by
  rcases (h.record_cases listed).1 with ⟨entry, -⟩ | ⟨s, mem, same, here⟩
  · obtain ⟨s, mem, pair⟩ := List.mem_map.1 (List.mem_of_find?_eq_some arm)
    have key : state = st.id := by simpa using List.find?_some arm
    cases pair
    exact absurd (key.trans entry) (h.ne_entry mem)
  · rw [same, h.arm mem] at arm
    cases arm
    exact here.symm

/-- An activation that was entered at a state dispatches to the block of the state. -/
theorem dispatches (h : Assembled p live cut w) (listed : st ∈ w.states)
    (enters : c.Enters program w st.id d) :
    ∃ a, d.focus = .run a ∧ Dispatches w st.block a := by
  generalize entered : st.id = state at enters
  cases enters with
  | @fresh target args _ b focus leads runs proc =>
    cases leads.next with
    | @entered _ _ _ _ ok =>
      obtain ⟨q, locals, a, starts, rfl⟩ := Config.entered_eq_ok ok
      cases runs
      have own : b.proc = q := (Activation.atBlock_eq_ok starts).1
      obtain rfl : q = w := own.symm.trans proc
      obtain ⟨-, resumption, rest, terminator⟩ := h.starts starts
      refine ⟨b, rfl, proc, rest, _, _, terminator, fun id leads => ?_⟩
      rw [Activation.dispatch, resumption] at leads
      cases leads
      exact (h.block_of_entry listed entered).symm
    | performed _ _ => cases runs
    | reentered focus' _ => cases focus.symm.trans focus'
    | statement focus' _ _ => cases focus.symm.trans focus'
    | terminator focus' _ _ => cases focus.symm.trans focus'
    | frame focus' _ => cases focus.symm.trans focus'
    | returned focus' _ _ => cases focus.symm.trans focus'
    | left focus' _ => cases focus.symm.trans focus'
  | @resumed frame completion _ b focus leads runs proc =>
    cases leads.next with
    | @reentered frame' completion' _ focus' ok =>
      cases focus.symm.trans focus'
      obtain ⟨q, locals, r, a, starts, state, rfl⟩ := Config.reentered_eq_ok ok
      cases runs
      have own : b.proc = q := (Activation.atBlock_eq_ok starts).1
      obtain rfl : q = w := own.symm.trans proc
      obtain ⟨-, resumption, rest, terminator⟩ := h.starts starts
      refine ⟨b, rfl, proc, rest, _, _, terminator, fun id leads => ?_⟩
      rw [Activation.dispatch, resumption] at leads
      simp only [state, ← entered] at leads
      split at leads
      · rename_i arm
        cases leads
        exact h.block_of_arm listed arm
      · cases leads
    | performed _ _ => cases runs
    | entered focus' _ => cases focus.symm.trans focus'
    | statement focus' _ _ => cases focus.symm.trans focus'
    | terminator focus' _ _ => cases focus.symm.trans focus'
    | frame focus' _ => cases focus.symm.trans focus'
    | returned focus' _ _ => cases focus.symm.trans focus'
    | left focus' _ => cases focus.symm.trans focus'

end Assembled

/-- The first step leads to the block where the way begins. -/
theorem Dispatches.first {program : Program} {w : Procedure} {start : BlockId} {c d : Config}
    {a b : Activation} (h : Dispatches w start a) (focus : c.focus = .run a)
    (next : c.Next program d) (carries : d.Carries c.callers b) : OnWay w start b := by
  obtain ⟨fresh, arms, terminator, leads⟩ := h.leads
  cases next with
  | statement focus' left _ =>
    cases focus.symm.trans focus'
    rw [h.rest] at left
    cases left
  | terminator focus' _ ok =>
    cases focus.symm.trans focus'
    rw [terminator] at ok
    obtain ⟨id, dispatches, goes⟩ := Except.bind_eq_ok_iff.1 ok
    obtain ⟨b', enters, last⟩ := Except.bind_eq_ok_iff.1 goes
    cases last
    obtain ⟨proc, -, found, -⟩ := Activation.atBlock_eq_ok enters
    have runs : (c.running b').Carries c.callers b' := .runs rfl rfl
    rw [carries.unique runs]
    exact ⟨proc.trans h.proc, start, .refl, by rw [← leads id dispatches, ← h.proc]; exact found⟩
  | performed idle _ => exact absurd focus (idle _)
  | entered focus' _ => cases focus.symm.trans focus'
  | reentered focus' _ => cases focus.symm.trans focus'
  | frame focus' _ => cases focus.symm.trans focus'
  | returned focus' _ _ => cases focus.symm.trans focus'
  | left focus' _ => cases focus.symm.trans focus'

/-! ## What the records say -/

/-- The successors of a state are exact.  In strictly ascending order, they are the states of
the suspending calls to which control comes from the block of the state before any suspending
call returns normally.  In every run, an activation that was entered at the state executes
only suspending calls with these states, up to the first one that returns normally. -/
theorem Procedure.weave_successors {p : Procedure} {c : Classification} {woven : WovenProcedure}
    (valid : p.validate = .ok ()) (weaves : p.weave c = .ok (some woven)) :
    (∃ st ∈ woven.procedure.states, st.id = .entry ∧ st.block = p.entryBlock) ∧
    ∀ st ∈ woven.procedure.states,
      st.successors.Pairwise (fun s t => s.index < t.index) ∧
      (∀ state, state ∈ st.successors ↔ woven.procedure.CallReachable st.block state) ∧
      ∀ (program : Program) (before start : Config),
        before.Enters program woven.procedure st.id start →
        ∀ (now : Config), start.Lasts program start.callers now →
        ∀ (a : Activation) (state : StateId), now.Suspends start.callers a state →
          state ∈ st.successors := by
  obtain ⟨unwoven, body, form⟩ := resumableForm_of_weave weaves
  obtain ⟨live, cut, h⟩ := exists_assembled (sound_of_validate valid body) unwoven form
  refine ⟨?_, fun st listed => ?_⟩
  · obtain ⟨reachable, slots, states⟩ := h.states_eq
    rw [states, List.map_cons]
    exact ⟨_, List.mem_cons_self, rfl, rfl⟩
  · obtain ⟨-, ascending, exactly⟩ := h.record_cases listed
    refine ⟨ascending, exactly, fun program before start enters now lasts a state suspends => ?_⟩
    obtain ⟨first, runs, dispatches⟩ := h.dispatches listed enters
    have carries : now.Carries start.callers a := .runs suspends.focus suspends.stack
    rcases OnWay.lasts (fun d b => dispatches.first runs) lasts with rfl | ⟨b, here, way⟩
    · -- the dispatcher is no suspending call
      cases runs.symm.trans suspends.focus
      obtain ⟨fresh, arms, terminator, -⟩ := dispatches.leads
      have call := suspends.call
      rw [Block.suspendState?, terminator] at call
      cases call
    · rw [here.unique carries] at way
      obtain ⟨id, reached, found⟩ := way.way
      exact (exactly state).2 ⟨id, a.block, reached, found, suspends.call⟩

/-- Raises unit. -/
def fails : Procedure :=
  { id := ⟨"Twice", "fails", "()"⟩, params := [], retTy := .void, locals := []
    blocks := [{ Block.empty ⟨0⟩ with terminator := .throw (.const .unit) }]
    entryBlock := ⟨0⟩, attrs := .plain, states := [] }

/-- Makes a call, and makes it again where it raises. -/
def twice : Procedure :=
  let ask : Stmt := .call none ⟨fails.id, .static⟩ []
  { id := ⟨"Twice", "twice", "()"⟩, params := [], retTy := .void
    locals := [⟨⟨0⟩, some "error", .any, false⟩]
    blocks := [
      { Block.empty ⟨0⟩ with
        statements := [ask], terminator := .goto ⟨2⟩, handler := some ⟨⟨1⟩, ⟨0⟩⟩
        suspendSites := [0] },
      { Block.empty ⟨1⟩ with
        statements := [ask], terminator := .goto ⟨2⟩, suspendSites := [0] },
      { Block.empty ⟨2⟩ with terminator := .ret none }]
    entryBlock := ⟨0⟩, attrs := .plain, states := [] }

def twiceWoven : Procedure := twice.resumableForm.toOption.getD twice

def twiceProgram : Program := ⟨[twiceWoven, fails]⟩

/-- The configuration after a step that asks for nothing. -/
def Config.after (program : Program) (c : Config) : Config :=
  match (c.step program : Drive Machine Progress) with
  | .done (.running d) => d
  | _ => c

theorem Config.leads_after {program : Program} {c : Config}
    (quiet : (c.step program : Drive Machine Progress) = .done (.running (c.after program))) :
    c.Leads program (c.after program) := by
  refine ⟨default, default, .ofEntry program default [], .ofEntry program default [], ?_⟩
  rw [quiet]
  exact .done

/-- The value that is handed to a caller. -/
def Config.handed? (c : Config) : Option Value :=
  match c.focus with
  | .deliver (.completed (.value v)) => some v
  | _ => none

theorem Config.not_returns {base : List Caller} {c : Config} (nothing : c.handed? = none) :
    ¬ c.Returns base := by
  rintro ⟨a, dst, state, save, next, v, -, focus⟩
  rw [handed?, focus] at nothing
  cases nothing

/-- The first call raises, and the handler makes the second one. -/
theorem Procedure.weave_successors_twice :
    ∃ st ∈ twiceWoven.states, st.id = .entry ∧ st.successors = [⟨1⟩, ⟨2⟩] ∧
      ∃ start now a, (Config.ofCall twice.id []).Enters twiceProgram twiceWoven .entry start ∧
        start.Lasts twiceProgram start.callers now ∧ now.Suspends start.callers a ⟨2⟩ ∧
        (⟨2⟩ : StateId) ∈ st.successors := by
  have weaves : twice.weave ⟨[(twice.id, .suspending)], [], []⟩ =
      .ok (some ⟨twiceWoven, twiceWoven.holder⟩) := by decide +kernel
  have listed : twiceWoven.states.headD default ∈ twiceWoven.states := by decide +kernel
  have entry : (twiceWoven.states.headD default).id = .entry := by decide +kernel
  refine ⟨_, listed, entry, by decide +kernel, ?_⟩
  let start := (Config.ofCall twice.id []).after twiceProgram
  let first := start.after twiceProgram
  let called := first.after twiceProgram
  let entered := called.after twiceProgram
  let raised := entered.after twiceProgram
  let second := raised.after twiceProgram
  have enters : (Config.ofCall twice.id []).Enters twiceProgram twiceWoven .entry start :=
    .fresh rfl (Config.leads_after rfl) rfl rfl
  have lasts : start.Lasts twiceProgram start.callers second := by
    have toFirst : start.Lasts twiceProgram start.callers first :=
      .step .here (Config.not_returns rfl) (Config.leads_after rfl) (.runs rfl rfl)
    have toCalled : start.Lasts twiceProgram start.callers called :=
      .step toFirst (Config.not_returns rfl) (Config.leads_after rfl) (.atop rfl)
    have toEntered : start.Lasts twiceProgram start.callers entered :=
      .step toCalled (Config.not_returns rfl) (Config.leads_after rfl) (.atop rfl)
    have toRaised : start.Lasts twiceProgram start.callers raised :=
      .step toEntered (Config.not_returns rfl) (Config.leads_after rfl) (.atop rfl)
    exact .step toRaised (Config.not_returns rfl) (Config.leads_after rfl) (.runs rfl rfl)
  have suspends : second.Suspends start.callers _ ⟨2⟩ := ⟨rfl, rfl, rfl, rfl⟩
  exact ⟨start, second, _, enters, lasts, suspends, ((weave_successors (by decide) weaves).2 _
    listed).2.2 _ _ _ (entry ▸ enters) _ lasts _ _ suspends⟩

end Resumable
