import Resumable.Proofs.Machine.Deeds
import Resumable.Proofs.Machine.Interpretation

/-!
# Runs without interruption

What a program does when nothing is ever saved and entered again: it goes on as an
interpretation does, and a primitive that has to wait stays where it is until it returns
(`Program.Does`).  Meanwhile others may do what they like to what tasks share.

In such a run every call is made once.  All that it asks for and its answer follow it directly
(`Uninterrupted.returns`), and so each call acts as `Primitive.Acts` says, however far the run
has come (`Unbroken.acts`).
-/

namespace Resumable

/-- A step of a program that is never interrupted, with its deeds. -/
inductive Program.Does (program : Program) : Config → List Deed → Config → Prop
  | work {c next : Config} {commons commons' : Commons} (other : c.primitive? = none)
      (step : Interpretation.step program ⟨c, commons⟩ = .running ⟨next, commons'⟩) :
    Does program c c.executes next
  /-- A primitive runs until it returns. -/
  | perform {target : ProcId} {args : List Value} {which : Primitive} {asks : List Ask}
      {completion : Completion} {callers : List Caller} {outer : Option (List Frame)}
      (named : Primitive.ofProc? target = some which)
      (performs : which.Performs args asks completion) :
    Does program ⟨.call target args, callers, outer⟩
      (.called which args :: (asks.map .asked ++ [.answered which completion]))
      ⟨.deliver (.completed completion), callers, outer⟩

/-- The deeds of a run that is never interrupted. -/
inductive Uninterrupted (program : Program) : Config → List Deed → Config → Prop
  | nil {c : Config} : Uninterrupted program c [] c
  | snoc {c c' c'' : Config} {es more : List Deed} (before : Uninterrupted program c es c')
      (step : program.Does c' more c'') : Uninterrupted program c (es ++ more) c''

/-- What may have been done of the next step: nothing, or the primitive that it calls was
called and has not returned. -/
inductive Config.Begins : Config → List Deed → Prop
  | nothing {c : Config} : Begins c []
  | call {target : ProcId} {args : List Value} {which : Primitive} {asks : List Ask}
      {callers : List Caller} {outer : Option (List Frame)}
      (named : Primitive.ofProc? target = some which) (begun : which.Begun args asks) :
    Begins ⟨.call target args, callers, outer⟩ (.called which args :: asks.map .asked)

/-- The deeds of a run up to some point.  What comes next may have been begun. -/
inductive Unbroken (program : Program) (c : Config) : List Deed → Prop
  | intro {done begun : List Deed} {c' : Config} (run : Uninterrupted program c done c')
      (begins : c'.Begins begun) : Unbroken program c (done ++ begun)

/-- What follows the call of a primitive: all that it asks for and its answer, or, if it still
waits, what it has asked for so far. -/
inductive Primitive.Acts (p : Primitive) (args : List Value) : List Deed → Prop
  | returned {asks : List Ask} {completion : Completion} {rest : List Deed}
      (performs : p.Performs args asks completion) :
    Acts p args (asks.map .asked ++ .answered p completion :: rest)
  | waiting {asks : List Ask} (begun : p.Begun args asks) : Acts p args (asks.map .asked)

variable {program : Program} {c c' c'' : Config} {es more before after begun : List Deed}
  {which : Primitive} {args : List Value}

theorem Uninterrupted.append (run : Uninterrupted program c es c')
    (rest : Uninterrupted program c' more c'') : Uninterrupted program c (es ++ more) c'' := by
  induction rest with
  | nil =>
    rw [List.append_nil]
    exact run
  | snoc _ step ih =>
    rw [← List.append_assoc]
    exact .snoc ih step

theorem Uninterrupted.single (step : program.Does c es c') : Uninterrupted program c es c' := by
  have run := Uninterrupted.nil.snoc step
  rw [List.nil_append] at run
  exact run

theorem Config.Begins.unbroken (begins : c.Begins es) : Unbroken program c es := by
  have unbroken := Unbroken.intro (Uninterrupted.nil : Uninterrupted program c [] c) begins
  rw [List.nil_append] at unbroken
  exact unbroken

theorem Uninterrupted.unbroken (run : Uninterrupted program c es c')
    (rest : Unbroken program c' more) : Unbroken program c (es ++ more) := by
  obtain ⟨run', begins⟩ := rest
  rw [← List.append_assoc]
  exact .intro (run.append run') begins

/-- A deed of two lists, one after the other, is in the second one or in the first. -/
theorem Deed.append_cases {x : Deed} (here : es ++ more = before ++ x :: after) :
    (∃ pre, more = pre ++ x :: after) ∨
      ∃ rest, es = before ++ x :: rest ∧ after = rest ++ more := by
  rcases List.append_eq_append_iff.1 here with ⟨pre, -, inside⟩ | ⟨post, whole, inside⟩
  · exact Or.inl ⟨pre, inside⟩
  · cases post with
    | nil => exact Or.inl ⟨[], inside.symm⟩
    | cons first post =>
      obtain ⟨rfl, rest⟩ := List.cons.inj inside
      exact Or.inr ⟨post, whole, rest⟩

theorem Config.not_called_of_executes (c : Config) (which : Primitive) (args : List Value) :
    .called which args ∉ c.executes := by
  unfold Config.executes
  split
  · cases Activation.statement? _ <;> simp
  · exact List.not_mem_nil

/-- A step makes one call at most, which comes first and returns. -/
theorem Program.Does.returns (step : program.Does c es c')
    (here : es = before ++ .called which args :: after) :
    ∃ asks completion, after = asks.map .asked ++ [.answered which completion] ∧
      which.Performs args asks completion := by
  cases step with
  | work other step =>
    refine absurd ?_ (c.not_called_of_executes which args)
    rw [here]
    exact List.mem_append_right _ List.mem_cons_self
  | @perform target args' which' asks completion callers outer named performs =>
    cases before with
    | nil =>
      cases here
      exact ⟨asks, completion, rfl, performs⟩
    | cons first before =>
      have inside : Deed.called which args ∈
          asks.map Deed.asked ++ [.answered which' completion] := by
        rw [(List.cons.inj here).2]
        exact List.mem_append_right _ List.mem_cons_self
      simp at inside

/-- Every call of the run returns, and what it asks for is all there is until then. -/
theorem Uninterrupted.returns (run : Uninterrupted program c es c')
    (here : es = before ++ .called which args :: after) :
    ∃ asks completion rest, after = asks.map .asked ++ .answered which completion :: rest ∧
      which.Performs args asks completion := by
  induction run generalizing after with
  | nil => simp at here
  | @snoc c' c'' es more run step ih =>
    rcases Deed.append_cases here with ⟨pre, inside⟩ | ⟨rest, inside, rfl⟩
    · obtain ⟨asks, completion, rfl, performs⟩ := step.returns inside
      exact ⟨asks, completion, [], rfl, performs⟩
    · obtain ⟨asks, completion, rest, rfl, performs⟩ := ih inside
      exact ⟨asks, completion, rest ++ more, by simp, performs⟩

/-- A call that has not returned is the last one. -/
theorem Config.Begins.waits (begins : c.Begins es)
    (here : es = before ++ .called which args :: after) :
    ∃ asks, after = asks.map .asked ∧ which.Begun args asks := by
  cases begins with
  | nothing => simp at here
  | @call target args' which' asks callers outer named begun =>
    cases before with
    | nil =>
      cases here
      exact ⟨asks, rfl, begun⟩
    | cons first before =>
      have inside : Deed.called which args ∈ asks.map Deed.asked := by
        rw [(List.cons.inj here).2]
        exact List.mem_append_right _ List.mem_cons_self
      simp at inside

/-- Each call of a run acts once, and so far at most if it is the last one. -/
theorem Unbroken.acts (unbroken : Unbroken program c es)
    (here : es = before ++ .called which args :: after) : which.Acts args after := by
  obtain ⟨run, begins⟩ := unbroken
  rcases Deed.append_cases here with ⟨pre, inside⟩ | ⟨rest, inside, rfl⟩
  · obtain ⟨asks, rfl, begun⟩ := begins.waits inside
    exact .waiting begun
  · obtain ⟨asks, completion, rest, rfl, performs⟩ := run.returns inside
    rw [List.append_assoc, List.cons_append]
    exact .returned performs

end Resumable
