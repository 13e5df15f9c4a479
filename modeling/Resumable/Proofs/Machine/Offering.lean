import Resumable.Proofs.Machine.Equivalence
import Resumable.Proofs.Machine.Waiting

/-!
# What a machine offers

A value that a call of `yield` offers waits in the fiber for the driver.  While the machine
works the fiber holds nothing; when the machine is on its way out of a call of `yield`, the
fiber holds the first argument of the call, and it does so until the end of the drive
(`Config.Holds`).  This needs nothing of the program.

When the machine does the work of an interpretation, the call of `yield` is the one that the
interpretation has come to as well (`Program.Matches.offer_eq`).  So a drive that ends leaves
in the fiber what the interpretation offers there (`Program.Matches.run_offers`).
-/

namespace Resumable

/-- What a call of `yield` offers: its first argument. -/
def Config.offer (c : Config) : Option Value :=
  match c.focus with
  | .call target args => if Primitive.ofProc? target = some .yield then args.head? else none
  | _ => none

/-! ## Requests -/

/-- Whether a request leaves the offered value as it is. -/
def Op.isQuiet : Op → Bool
  | .offer _ => false
  | _ => true

section

variable {c : Commons} {f : Fiber} {σ α : Type} {offered : Option Value}

theorem Fiber.offered_listen (f : Fiber) (id : MailboxId) :
    (f.listen id).offered = f.offered := by
  unfold listen
  split <;> rfl

theorem offered_get (c : Commons) (f : Fiber) (id : MailboxId) :
    (c.get f id).2.2.offered = f.offered := by
  unfold Commons.get
  repeat' split
  all_goals first | rfl | exact f.offered_listen id

theorem offered_put (c : Commons) (f : Fiber) (id : MailboxId) (v : Value) :
    (c.put f id v).2.2.offered = f.offered := by
  unfold Commons.put
  repeat' split
  all_goals first | rfl | exact f.offered_listen id

theorem offered_perform (c : Commons) (f : Fiber) {op : Op} (quiet : op.isQuiet = true) :
    (op.perform c f).2.2.offered = f.offered := by
  cases op with
  | get box => exact offered_get c f box
  | put box v => exact offered_put c f box v
  | offer v => cases quiet
  | _ => rfl

theorem secures_quiet {op : Op} (quiet : op.isQuiet = true) (h : f.offered = offered)
    {g : op.Reply → Drive σ α} {post : α → Commons → Fiber → Prop}
    (next : ∀ r c f, f.offered = offered → (g r).Secures post c f) :
    (Drive.bind (.request op) g).Secures post c f := by
  refine .bind (.request fun c₀ _ r c' f' answer => next r c' f' ?_)
  have same := offered_perform c₀ f quiet
  rw [answer] at same
  exact same.trans h

/-! ## Primitives -/

/-- What a fiber without an offer holds when a primitive has ended. -/
def Hands (p : Primitive) (args : List Value) (again : Bool) :
    Except MachineFault Outcome → Commons → Fiber → Prop
  | .ok .suspended, _, f => p.suspends = true ∧ (again = true → p ≠ .yield) ∧
      f.offered = if p = .yield then args.head? else none
  | _, _, f => f.offered = none

theorem secures_suspendWith_quiet {p : Primitive} (slots : List Value) {args : List Value}
    {again : Bool} (suspends : p.suspends = true) (first : again = true → p ≠ .yield)
    (h : f.offered = if p = .yield then args.head? else none) :
    (p.suspendWith slots : Drive σ _).Secures (Hands p args again) c f :=
  secures_quiet rfl h fun _ _ _ h => ⟨suspends, first, h⟩

/-- Only `yield` offers something, and only when it is called. -/
theorem secures_hands (p : Primitive) (args : List Value) (again : Bool)
    (h : f.offered = none) :
    (p.perform args again : Drive σ _).Secures (Hands p args again) c f := by
  have alarm : ∀ (again : Bool) (box : MailboxId) (c : Commons) (f : Fiber), f.offered = none →
      (Primitive.awaitAlarm box : Drive σ _).Secures (Hands .sleep args again) c f := by
    intro again box c f h
    refine secures_quiet rfl h fun message c f h => ?_
    cases message with
    | some _ => exact h
    | none => exact secures_suspendWith_quiet _ rfl (fun _ => by decide) h
  cases p with
  | print => exact secures_quiet rfl h fun _ _ _ h => h
  | getNb =>
    simp only [Primitive.perform]
    split
    · exact h
    · exact secures_quiet rfl h fun _ _ _ h => h
  | putNb =>
    simp only [Primitive.perform]
    split
    · exact secures_quiet rfl h fun _ _ _ h => h
    · exact h
  | yield =>
    cases again with
    | true => exact h
    | false =>
      have once : false = true → Primitive.yield ≠ .yield := fun no => absurd no Bool.false_ne_true
      cases args with
      | nil =>
        exact secures_quiet rfl h fun _ _ _ h => secures_suspendWith_quiet _ rfl once h
      | cons v rest =>
        refine .bind (.request fun c₀ _ r c' f' answer => ?_)
        cases answer
        have holds : (f.offer v).offered = some v := rfl
        exact secures_quiet rfl holds fun _ _ _ h => secures_suspendWith_quiet _ rfl once h
  | get =>
    simp only [Primitive.perform]
    split
    · exact h
    · refine secures_quiet rfl h fun message _ _ h => ?_
      cases message with
      | some _ => exact h
      | none => exact secures_suspendWith_quiet _ rfl (fun _ => by decide) h
  | put =>
    simp only [Primitive.perform]
    split
    · refine secures_quiet rfl h fun accepted _ _ h => ?_
      cases accepted with
      | true => exact h
      | false => exact secures_suspendWith_quiet _ rfl (fun _ => by decide) h
    · exact h
  | sleep =>
    simp only [Primitive.perform]
    split
    · split
      · exact h
      · exact alarm _ _ _ _ h
    · split
      · exact h
      · refine secures_quiet rfl h fun box _ _ h => ?_
        exact secures_quiet rfl h fun _ _ _ h => alarm _ box _ _ h
  | exit => exact secures_quiet rfl h fun _ _ _ h => ⟨rfl, fun _ => by decide, h⟩
  | errorExit => exact secures_quiet rfl h fun _ _ _ h => ⟨rfl, fun _ => by decide, h⟩

end

/-! ## Steps -/

namespace Config

variable {c : Commons} {f : Fiber} {cfg : Config} {program : Program} {σ : Type}
  {offered : Option Value}

/-- The fiber of a machine holds nothing while the machine works, and what was offered when
the machine is on its way out. -/
structure Holds (offered : Option Value) (cfg : Config) (f : Fiber) : Prop where
  working : cfg.Active → f.offered = none
  leaving : cfg.focus = .deliver .suspended → f.offered = offered

/-- The machine is on its way out, or it runs a primitive that may have to wait. -/
def Departs (cfg : Config) : Prop :=
  match cfg.focus with
  | .deliver .suspended => True
  | .call target _ => ∃ p, Primitive.ofProc? target = some p ∧ p.suspends = true
  | .reenter frame _ =>
    ∃ p, Primitive.ofProc? frame.proc = some p ∧ p.suspends = true ∧ p ≠ .yield
  | _ => False

/-- What holds after a step. -/
def After (offered : Option Value) (cfg : Config) : Progress → Commons → Fiber → Prop
  | .running next, _, f =>
    next.Holds offered f ∧ (next.focus = .deliver .suspended → cfg.Departs)
  | .halted r, _, f =>
    cfg.focus = .deliver .suspended ∧ f.offered = offered ∨
      r ≠ .ok .suspended ∧ f.offered = none

/-- A machine that works offers nothing. -/
theorem after_running (h : f.offered = none) {next : Config} (active : next.Active) :
    cfg.After offered (.running next) c f :=
  ⟨⟨fun _ => h, fun leaving => absurd leaving active⟩, fun leaving => absurd leaving active⟩

theorem after_completed (h : f.offered = none) (completion : Completion) :
    cfg.After offered (.halted (.ok (.completed completion))) c f :=
  Or.inr ⟨nofun, h⟩

theorem after_of_goes (h : f.offered = none) {r : Except MachineFault Config} (goes : Goes r) :
    cfg.After offered (.ofExcept r) c f := by
  cases r with
  | error fault => exact Or.inr ⟨nofun, h⟩
  | ok next => exact after_running h (goes next rfl)

/-- A primitive that was performed hands its end to the caller. -/
theorem secures_primitive (h : f.offered = none) (p : Primitive) (args : List Value) (again : Bool)
    (offers : again = false → offered = if p = .yield then args.head? else none)
    (retries : again = true → offered = none)
    (departs : p.suspends = true → (again = true → p ≠ .yield) → cfg.Departs) :
    (cfg.perform p args again : Drive σ _).Secures (cfg.After offered) c f := by
  refine .bind ((secures_hands p args again h).mono fun r c f hands => ?_)
  rcases r with fault | (completion | -)
  · exact Or.inr ⟨nofun, hands⟩
  · exact after_running hands nofun
  · obtain ⟨suspends, first, holds⟩ := hands
    refine ⟨⟨fun active => absurd rfl active, fun _ => holds.trans ?_⟩,
      fun _ => departs suspends first⟩
    cases again with
    | false => exact (offers rfl).symm
    | true => rw [if_neg (first rfl), retries rfl]

theorem Holds.step (h : cfg.Holds offered f) (same : cfg.Active → cfg.offer = offered) :
    (cfg.step program : Drive σ _).Secures (cfg.After offered) c f := by
  obtain ⟨working, leaving⟩ := h
  unfold Config.step
  cases focus : cfg.focus with
  | call target args =>
    have active : cfg.Active := by
      intro leaves
      rw [focus] at leaves
      cases leaves
    have quiet := working active
    have same := same active
    simp only [offer, focus] at same
    simp only
    split
    · rename_i p named
      simp only [named, Option.some.injEq] at same
      refine secures_primitive quiet p args false (fun _ => same.symm)
        (fun no => absurd no Bool.false_ne_true) fun suspends _ => ?_
      simp only [Departs, focus]
      exact ⟨p, named, suspends⟩
    · exact after_of_goes quiet (inside_entered program target args).goes
  | reenter frame completion =>
    have active : cfg.Active := by
      intro leaves
      rw [focus] at leaves
      cases leaves
    have quiet := working active
    have same := same active
    simp only [offer, focus] at same
    simp only
    split
    · rename_i p named
      refine secures_primitive quiet p frame.slots true
        (fun no => absurd no.symm Bool.false_ne_true) (fun _ => same.symm) ?_
      intro suspends first
      simp only [Departs, focus]
      exact ⟨p, named, suspends, first rfl⟩
    · exact after_of_goes quiet (inside_reentered program frame completion).goes
  | run a =>
    have quiet := working (by rw [Active, focus]; simp)
    simp only
    split
    · exact secures_quiet rfl quiet fun text _ _ quiet =>
        after_of_goes quiet (inside_afterStmt text _).goes
    · exact after_of_goes quiet (inside_afterTerminator _).goes
  | deliver outcome =>
    cases outcome with
    | completed completion =>
      have quiet := working (by rw [Active, focus]; simp)
      cases callers : cfg.callers with
      | nil =>
        simp only [finish]
        cases cfg.outer with
        | none => exact after_completed quiet completion
        | some frames =>
          cases frames with
          | nil => exact secures_quiet rfl quiet fun _ _ _ quiet => after_completed quiet completion
          | cons frame frames => exact after_running quiet (by simp [Active])
      | cons caller callers => exact after_of_goes quiet (inside_afterCall caller completion).goes
    | suspended =>
      have holds := leaving focus
      have departs : cfg.Departs := by simp only [Departs, focus]
      cases callers : cfg.callers with
      | nil =>
        simp only [finish]
        cases cfg.outer with
        | none => exact Or.inl ⟨focus, holds⟩
        | some frames => exact secures_quiet rfl holds fun _ _ _ holds => Or.inl ⟨focus, holds⟩
      | cons caller callers =>
        simp only [suspendCaller]
        split
        · exact Or.inl ⟨focus, holds⟩
        · split
          · exact Or.inl ⟨focus, holds⟩
          · refine secures_quiet rfl holds fun _ _ _ holds => ?_
            exact ⟨⟨fun active => absurd rfl active, fun _ => holds⟩, fun _ => departs⟩

end Config

/-! ## Runs -/

namespace Interpretation

variable {program : Program} {i : Interpretation}

/-- Nothing is offered at the end of a run. -/
theorem offer_of_ended {e : RunEnd} {c : Commons} (ended : i.step program = .ended e c) :
    i.config.offer = none := by
  unfold Config.offer
  split
  · rename_i target args focus
    split
    · rename_i named
      simp only [step, focus, named, perform] at ended
      cases ended
    · rfl
  · rfl

/-- A primitive that may have to wait does not simply return. -/
theorem perform_ne_running {p : Primitive} {args : List Value} (suspends : p.suspends = true)
    (j : Interpretation) : i.perform p args ≠ .running j := by
  unfold perform
  cases p with
  | yield => exact nofun
  | sleep => exact nofun
  | get => exact nofun
  | put => exact nofun
  | exit => exact nofun
  | errorExit => exact nofun
  | getNb => cases suspends
  | putNb => cases suspends
  | print => cases suspends

end Interpretation

namespace Program

variable {original program : Program} {i : Interpretation} {c : Config} {f : Fiber} {rank : Nat}

/-- The machine has come to the same call as the interpretation, if it has come to one. -/
theorem Matches.offer_eq (h : program.Matches rank i.config c f) (active : c.Active) :
    c.offer = i.config.offer := by
  obtain ⟨config, commons⟩ := i
  cases h with
  | suspended => exact absurd rfl active
  | _ => rfl

/-- An interpretation does not simply go on where the machine may have to wait. -/
theorem Matches.not_running (h : program.Matches rank i.config c f) (departs : c.Departs)
    (j : Interpretation) : i.step original ≠ .running j := by
  obtain ⟨config, commons⟩ := i
  intro running
  cases h with
  | @call target args callers callers' outer outer' f waits clean =>
    obtain ⟨p, named, suspends⟩ := departs
    simp only [Interpretation.step, named] at running
    exact Interpretation.perform_ne_running suspends j running
  | @suspended which target args callers callers' outer outer' inner frames f named leaves =>
    simp only [Interpretation.step, named] at running
    exact Interpretation.perform_ne_running leaves.suspends j running
  | @reenter completion target frame callers callers' outer outer' f waits clean =>
    obtain ⟨p, named, -⟩ := departs
    obtain ⟨notPrimitive, -⟩ := Waits.reentered
      (c := ⟨.deliver (.completed completion), callers, outer⟩)
      (k := ⟨.reenter frame completion, callers', outer'⟩) waits rfl clean
    cases notPrimitive.symm.trans named
  | retrying =>
    obtain ⟨p, named, -, other⟩ := departs
    cases (ofProc?_procId .yield).symm.trans named
    exact other rfl
  | _ => exact departs

open Interpretation (Leads Blocks) in
/-- A drive that ends has come to the point where the last step of the interpretation is due,
and the fiber holds what this step offers.  No drive breaks the rules. -/
theorem Matches.run_offers (mirrors : original.Mirrors program)
    (h : program.Matches rank i.config c f) (holds : c.Holds i.config.offer f)
    (unblocked : ¬ Blocks original i) {σ : Type} {m : σ} {fuel : Nat}
    {ending : Ending (Except MachineFault Outcome)} {s : Scene σ}
    (run : (c.run program fuel).run ⟨i.commons, f, m⟩ = (ending, s)) :
    ending = .diverged ∨ ∃ r j rank, ending = .finished r ∧ Leads original i j ∧
      Advances original program j rank m (.finished (.halted r), s) ∧
      s.fiber.offered = j.config.offer := by
  induction fuel generalizing i c f rank with
  | zero =>
    cases run
    exact Or.inl rfl
  | succ fuel ih =>
    rw [Config.run_succ, Drive.run_bind] at run
    rcases h.step (m := m) mirrors with blocked | advances
    · exact absurd (.here blocked) unblocked
    have secures :
        (c.step program : Drive σ Progress).Secures (c.After i.config.offer) i.commons f :=
      holds.step h.offer_eq
    have after (p : Progress) (s : Scene σ)
        (run : (c.step program : Drive σ Progress).run ⟨i.commons, f, m⟩ = (.finished p, s)) :
        c.After i.config.offer p s.commons s.fiber := secures.run run
    generalize (c.step program : Drive σ Progress).run ⟨i.commons, f, m⟩ = result at *
    cases advances with
    | stutter lt still => exact ih still (after _ _ rfl).1 unblocked run
    | @step j c' f' stepped matched =>
      obtain ⟨holds', departs⟩ := after _ _ rfl
      -- The machine is not on its way out: then the interpretation would not simply go on.
      have working : c'.Active := fun leaving => h.not_running (departs leaving) j stepped
      have holds'' : c'.Holds j.config.offer f' :=
        ⟨holds'.working, fun leaving => absurd leaving working⟩
      obtain ⟨rank, still⟩ := matched
      obtain diverged | ⟨r, k, rank, same, leads, advances, offered⟩ :=
        ih still holds'' (fun later => unblocked (.next stepped later)) run
      · exact Or.inl diverged
      · exact Or.inr ⟨r, k, rank, same, .head stepped leads, advances, offered⟩
    | ended stepped halts =>
      cases run
      have none := Interpretation.offer_of_ended stepped
      refine Or.inr ⟨_, i, rank, rfl, .refl, .ended stepped halts, ?_⟩
      obtain ⟨-, offered⟩ | ⟨-, offered⟩ := after _ _ rfl
      · exact offered
      · exact offered.trans none.symm
    | yielded stepped reason held resumed =>
      cases run
      refine Or.inr ⟨_, i, rank, rfl, .refl, .yielded stepped reason held resumed, ?_⟩
      obtain ⟨-, offered⟩ | ⟨other, -⟩ := after _ _ rfl
      · exact offered
      · exact absurd rfl other

end Program

end Resumable
