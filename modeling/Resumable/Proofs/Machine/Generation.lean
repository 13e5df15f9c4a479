import Resumable.Proofs.Machine.Offering
import Resumable.Task.Generator

/-!
# What a generator draws from a machine

A generator over the woven procedures of a unit draws the values that the original procedures
offer by their calls of `yield`, in order, each of them once (`Generator.enumerates_woven`).
Calls of `yield` without an argument give nothing, and once the original procedures have come to
an end nothing is drawn any more, and the machine is left alone.

A generator that has just been made, or has just drawn an item, follows the interpretation of
the original procedures (`Generator.Follows`).  A drive of its machine takes it past the next
yield, or to the end (`Generator.Turns`), and a request for an item is one drive after another.
-/

namespace Resumable

/-! ## Interpretations -/

namespace Interpretation

variable {program : Program} {i j k : Interpretation} {vs : List Value}

/-- A part of a run, with the values that calls of `yield` offer on the way. -/
inductive Offers (program : Program) : Interpretation → List Value → Interpretation → Prop
  | stay {i j : Interpretation} (leads : Leads program i j) : Offers program i [] j
  | yield {i j k l : Interpretation} {vs : List Value} (leads : Leads program i j)
      (yielded : j.step program = .yielded k) (rest : Offers program k vs l) :
    Offers program i (j.config.offer.toList ++ vs) l

theorem Offers.blocks (h : Offers program i vs j) (blocks : Blocks program j) :
    Blocks program i := by
  induction h with
  | stay leads => exact leads.blocks blocks
  | yield leads yielded _ ih => exact leads.blocks (.yield yielded (ih blocks))

theorem Offers.append {us : List Value} (h : Offers program i us j) (h' : Offers program j vs k) :
    Offers program i (us ++ vs) k := by
  induction h with
  | stay leads =>
    cases h' with
    | stay leads' => exact .stay (leads.trans leads')
    | yield leads' yielded rest => exact .yield (leads.trans leads') yielded rest
  | yield leads yielded _ ih =>
    rw [List.append_assoc]
    exact .yield leads yielded (ih h')

theorem Offers.next (step : i.step program = .running j) (h : Offers program j vs k) :
    Offers program i vs k :=
  .append (.stay (.single step)) h

/-- A run does not come to rest at two places. -/
theorem Leads.unique (h : Leads program i j) (h' : Leads program i k)
    (stops : ∀ l, j.step program ≠ .running l) (stops' : ∀ l, k.step program ≠ .running l) :
    j = k := by
  induction h using Relation.ReflTransGen.head_induction_on with
  | refl =>
    obtain rfl | ⟨l, step, -⟩ := Relation.ReflTransGen.cases_head h'
    · rfl
    · exact absurd step (stops l)
  | @head i l step _ ih =>
    obtain rfl | ⟨l', step', rest⟩ := Relation.ReflTransGen.cases_head h'
    · exact absurd step (stops' l)
    · cases step.symm.trans step'
      exact ih rest

/-- Runs to the end, for a number of steps at most, and gives the offered values with the state
before the last step. -/
def offersFor (program : Program) : Nat → Interpretation → Option (List Value × Interpretation)
  | 0, _ => none
  | fuel + 1, i =>
    match i.step program with
    | .running j => offersFor program fuel j
    | .yielded j => (offersFor program fuel j).map fun (vs, k) => (i.config.offer.toList ++ vs, k)
    | .ended _ _ => some ([], i)
    | .blocked => none

theorem offers_of_offersFor (fuel : Nat) (run : offersFor program fuel i = some (vs, j)) :
    Offers program i vs j := by
  induction fuel generalizing i vs with
  | zero => cases run
  | succ fuel ih =>
    rw [offersFor] at run
    cases step : i.step program with
    | running j =>
      rw [step] at run
      exact .next step (ih run)
    | yielded j =>
      rw [step] at run
      obtain ⟨⟨vs', k⟩, rest, same⟩ := Option.map_eq_some_iff.1 run
      cases same
      exact .yield .refl step (ih rest)
    | ended e c =>
      rw [step] at run
      cases run
      exact .stay .refl
    | blocked =>
      rw [step] at run
      cases run

end Interpretation

/-! ## Bounds on steps -/

theorem Config.run_mono {program : Program} {σ : Type} {c : Config} {s s' : Scene σ}
    {r : Except MachineFault Outcome} {fuel more : Nat} (le : fuel ≤ more)
    (run : (c.run program fuel).run s = (.finished r, s')) :
    (c.run program more).run s = (.finished r, s') := by
  induction fuel generalizing more c s with
  | zero => cases run
  | succ fuel ih =>
    obtain ⟨more, rfl⟩ : ∃ m, more = m + 1 := ⟨more - 1, by omega⟩
    rw [Config.run_succ, Drive.run_bind] at run ⊢
    generalize (c.step program : Drive σ Progress).run s = result at run ⊢
    rcases result with ⟨progress | message | -, s''⟩
    · cases progress with
      | running c' => exact ih (by omega) run
      | halted r' => exact run
    · cases run
    · cases run

namespace Machine

variable {m : Machine} {s s' : Scene Machine} {fuel more : Nat}

theorem advance_mono {r : Except MachineFault Outcome} (le : fuel ≤ more)
    (run : (m.advance fuel).run s = (.finished r, s')) :
    (m.advance more).run s = (.finished r, s') := by
  obtain ⟨program, entry, args⟩ := m
  change Drive.run (Drive.bind (.done s.fiber.isSuspended) _) _ = _ at run
  change Drive.run (Drive.bind (.done s.fiber.isSuspended) _) _ = _
  cases suspended : s.fiber.isSuspended with
  | true =>
    rw [suspended] at run
    have entered : Drive.run ((Config.ofFrames s.fiber.frames).run program fuel)
        { s with fiber := s.fiber.rewind.2 } = (.finished r, s') := run
    exact Config.run_mono le entered
  | false =>
    rw [suspended] at run
    cases args with
    | none => exact run
    | some args =>
      have called : Drive.run ((Config.ofCall entry args).run program fuel)
          ({ s with body := ⟨program, entry, none⟩ } : Scene Machine) = (.finished r, s') := run
      exact Config.run_mono le called

theorem execute_mono {ending : DriveEnd} (le : fuel ≤ more)
    (run : (m.execute fuel).run s = (.finished ending, s')) :
    (m.execute more).run s = (.finished ending, s') := by
  obtain ⟨r, run, same⟩ := run_execute_iff.1 run
  exact run_execute_iff.2 ⟨r, advance_mono le run, same⟩

end Machine

namespace Program

open Interpretation (Leads)

/-- A drive comes to its end where the interpretation does not simply go on. -/
theorem Matches.comes {original program : Program} {i j : Interpretation} {c : Config} {f : Fiber}
    {rank : Nat} {σ : Type} (h : program.Matches rank i.config c f)
    (mirrors : original.Mirrors program) (leads : Leads original i j)
    (stops : ∀ k, j.step original ≠ .running k) (unblocked : j.step original ≠ .blocked) (m : σ) :
    c.Comes program ⟨i.commons, f, m⟩ fun _ _ => True := by
  induction leads using Relation.ReflTransGen.head_induction_on generalizing c f rank with
  | refl =>
    obtain ⟨c', f', back, advances⟩ := h.catches_up mirrors unblocked m
    refine back _ ?_
    generalize step : (c'.step program : Drive σ Progress).run ⟨j.commons, f', m⟩ = result
      at advances
    cases advances with
    | stutter lt _ => exact absurd lt (Nat.not_lt_zero _)
    | step stepped _ => exact absurd stepped (stops _)
    | ended _ _ => exact comes_of_halt step trivial
    | yielded _ _ _ _ => exact comes_of_halt step trivial
  | head running _ ih =>
    obtain ⟨c', f', back, advances⟩ := h.catches_up mirrors (by rw [running]; exact nofun) m
    obtain ⟨c'', f'', step, rank', matched⟩ := advances.of_running running
    exact back _ (comes_of_step step (ih matched))

end Program

namespace Generator

/-! ## Requests for items -/

/-- Requests for the next item, one after the other.  Each of them is answered, if the drives
and their steps are not bounded too low. -/
inductive Draws : Generator Machine → Commons → List Draw → Generator Machine → Commons → Prop
  | nil {g : Generator Machine} {c : Commons} : Draws g c [] g c
  | cons {g g' g'' : Generator Machine} {c c' c'' : Commons} {d : Draw} {ds : List Draw}
      {drives steps : Nat}
      (call : g.next (Machine.execute steps) drives c = (.finished d, c', g'))
      (rest : Draws g' c' ds g'' c'') : Draws g c (d :: ds) g'' c''

/-- What is drawn from a generator is what an interpretation offers. -/
structure Enumerates (original : Program) (g : Generator Machine) (i : Interpretation) :
    Prop where
  /-- The items are the values that the interpretation offers, in order, and nothing is drawn
  only where it has ended. -/
  sound : ∀ {ds g' c'}, Draws g i.commons ds g' c' → ∃ vs n j,
    ds = vs.map .item ++ List.replicate n .exhausted ∧ i.Offers original vs j ∧
      (n = 0 ∧ j.commons = c' ∨ n ≠ 0 ∧ ∃ e, j.step original = .ended e c')
  /-- Every value that the interpretation offers is drawn. -/
  complete : ∀ {vs j}, i.Offers original vs j → ∃ g' c', Draws g i.commons (vs.map .item) g' c'
  /-- Once the interpretation has ended, nothing is drawn, however often. -/
  ends : ∀ {vs j e c'}, i.Offers original vs j → j.step original = .ended e c' → ∀ n,
    ∃ g', Draws g i.commons (vs.map .item ++ List.replicate (n + 1) .exhausted) g' c'
  /-- Once nothing was drawn, the body is not driven any more. -/
  finished : ∀ {ds g' c'}, Draws g i.commons (ds ++ [.exhausted]) g' c' →
    ∀ exec drives c, g'.next exec (drives + 1) c = (.finished .exhausted, c, g')
  /-- No request breaks the rules of the runtime. -/
  unbroken : ∀ {ds g' c'}, Draws g i.commons ds g' c' → ∀ drives steps message,
    (g'.next (Machine.execute steps) drives c').1 ≠ .violated message

variable {σ : Type} {g g' : Generator Machine} {original program : Program}
  {i j k : Interpretation} {c c' : Commons} {s : Scene Machine} {vs : List Value}

/-- The generator after a drive, when what was offered is taken. -/
def taking (g : Generator σ) (e : DriveEnd) (s : Scene σ) : Generator σ :=
  let g := { g with body := s.body, fiber := s.fiber }.afterDrive e
  { g with fiber := g.fiber.takeOffered.2 }

theorem next_finished {exec : σ → Drive σ DriveEnd} {g : Generator σ} (finished : g.finished = true)
    (drives : Nat) : g.next exec (drives + 1) c = (.finished .exhausted, c, g) := by
  rw [next, finished]
  rfl

/-- A drive that ends gives an item, or another one follows. -/
theorem next_driven {exec : σ → Drive σ DriveEnd} {g : Generator σ} {s : Scene σ} {e : DriveEnd}
    (unfinished : g.finished = false)
    (run : (exec g.body).run ⟨c, g.fiber, g.body⟩ = (.finished e, s))
    (sound : ∀ message, e ≠ .panicked message) (drives : Nat) :
    g.next exec (drives + 1) c =
      match s.fiber.offered with
      | some v => (.finished (.item v), s.commons, g.taking e s)
      | none => (g.taking e s).next exec drives s.commons := by
  obtain ⟨body, fiber, finished⟩ := g
  obtain rfl : finished = false := unfinished
  rw [next, if_neg Bool.false_ne_true, run]
  cases e with
  | panicked message => exact absurd rfl (sound message)
  | ready result =>
    unfold taking afterDrive Fiber.takeOffered
    simp only
    cases s.fiber.offered <;> rfl
  | pending =>
    unfold taking afterDrive Fiber.takeOffered Fiber.takeReason
    simp only
    cases s.fiber.offered <;> rfl

theorem next_mono {steps more drives later : Nat} {d : Draw} (le : steps ≤ more)
    (le' : drives ≤ later)
    (call : g.next (Machine.execute steps) drives c = (.finished d, c', g')) :
    g.next (Machine.execute more) later c = (.finished d, c', g') := by
  induction drives generalizing later g c with
  | zero => cases call
  | succ drives ih =>
    obtain ⟨later, rfl⟩ : ∃ m, later = m + 1 := ⟨later - 1, by omega⟩
    cases finished : g.finished with
    | true =>
      rw [next_finished finished] at call ⊢
      exact call
    | false =>
      generalize run : (g.body.execute steps).run ⟨c, g.fiber, g.body⟩ = result
      obtain ⟨ending, s⟩ := result
      cases ending with
      | violated message =>
        rw [next, finished, run] at call
        cases call
      | diverged =>
        rw [next, finished, run] at call
        cases call
      | finished e =>
        have run' := Machine.execute_mono le run
        by_cases panicked : ∃ message, e = .panicked message
        · obtain ⟨message, rfl⟩ := panicked
          rw [next, finished, run] at call
          rw [next, finished, run']
          exact call
        · have sound : ∀ message, e ≠ .panicked message :=
            fun message same => panicked ⟨message, same⟩
          rw [next_driven finished run sound] at call
          rw [next_driven finished run' sound]
          cases offered : s.fiber.offered with
          | some v =>
            rw [offered] at call
            exact call
          | none =>
            rw [offered] at call
            exact ih (by omega) call

/-! ## Drives -/

/-- The machine of the generator is about to go on where the interpretation is. -/
structure Follows (program : Program) (g : Generator Machine) (i : Interpretation) : Prop where
  unfinished : g.finished = false
  opens : ∃ start f₀ m₀ rank, g.body.Opens g.fiber start f₀ m₀ ∧ m₀.program = program ∧
    start.Active ∧ f₀.offered = none ∧ program.Matches rank i.config start f₀

open Interpretation (Leads Blocks Offers)

/-- What a drive has done that has come to its end. -/
inductive Turns (original program : Program) (g : Generator Machine) (i : Interpretation) :
    DriveEnd → Scene Machine → Prop
  | yielded {j k : Interpretation} {s : Scene Machine} (leads : Leads original i j)
      (stepped : j.step original = .yielded k) (offered : s.fiber.offered = j.config.offer)
      (commons : s.commons = k.commons) (follows : (g.taking .pending s).Follows program k) :
    Turns original program g i .pending s
  | ended {j : Interpretation} {e : RunEnd} {ending : DriveEnd} {s : Scene Machine}
      (leads : Leads original i j) (stepped : j.step original = .ended e s.commons)
      (quiet : s.fiber.offered = none) (finished : (g.taking ending s).finished = true)
      (sound : ∀ message, ending ≠ .panicked message) : Turns original program g i ending s

theorem Follows.turns (h : g.Follows program i) (mirrors : original.Mirrors program)
    (unblocked : ¬ Blocks original i) {steps : Nat} {ending : Ending DriveEnd}
    (run : (g.body.execute steps).run ⟨i.commons, g.fiber, g.body⟩ = (ending, s)) :
    ending = .diverged ∨ ∃ e, ending = .finished e ∧ Turns original program g i e s := by
  obtain ⟨unfinished, start, f₀, m₀, rank, opens, rfl, active, quiet, matched⟩ := h
  have whole := Drive.run_bind (g.body.advance steps) (fun r => .done (Machine.driveEnd r))
    ⟨i.commons, g.fiber, g.body⟩
  change (g.body.execute steps).run ⟨i.commons, g.fiber, g.body⟩ = _ at whole
  rw [opens, run] at whole
  generalize inside : (start.run m₀.program steps).run ⟨i.commons, f₀, m₀⟩ = result at whole
  obtain ⟨last, s'⟩ := result
  have holds : start.Holds i.config.offer f₀ :=
    ⟨fun _ => quiet, fun leaving => absurd leaving active⟩
  obtain rfl | ⟨r, j, rank', rfl, leads, advances, offered⟩ :=
    matched.run_offers mirrors holds unblocked inside
  · cases whole
    exact Or.inl rfl
  · cases whole
    refine Or.inr ⟨_, rfl, ?_⟩
    cases advances with
    | @ended r e f stepped halts =>
      have none := offered.trans (Interpretation.offer_of_ended stepped)
      generalize paused : f.reason = reason at halts
      cases halts with
      | @completed completion =>
        cases completion <;> exact .ended leads stepped none rfl nofun
      | exited =>
        refine .ended leads stepped none ?_ nofun
        change (!goesOn f.reason) = true
        rw [paused]
        rfl
      | faulted => exact .ended leads stepped none rfl nofun
    | @yielded k f stepped reason held resumed =>
      refine .yielded leads stepped offered rfl ⟨?_, _, _, m₀, 7, Machine.opens_frames held, rfl,
        Config.active_ofFrames _, rfl, resumed _ rfl⟩
      change (!goesOn f.reason) = false
      rw [reason]
      rfl

/-! ## What is drawn is offered -/

/-- What a request for the next item is answered. -/
theorem Follows.next (h : g.Follows program i) (mirrors : original.Mirrors program)
    (unblocked : ¬ Blocks original i) {steps drives : Nat} {ending : Ending Draw}
    (call : g.next (Machine.execute steps) drives i.commons = (ending, c', g')) :
    ending = .diverged ∨
      (∃ v j, ending = .finished (.item v) ∧ Offers original i [v] j ∧ c' = j.commons ∧
        g'.Follows program j) ∨
      ending = .finished .exhausted ∧ g'.finished = true ∧
        ∃ j e, Offers original i [] j ∧ j.step original = .ended e c' := by
  induction drives generalizing g i with
  | zero =>
    cases call
    exact Or.inl rfl
  | succ drives ih =>
    generalize run : (g.body.execute steps).run ⟨i.commons, g.fiber, g.body⟩ = result
    obtain ⟨last, s⟩ := result
    obtain rfl | ⟨e, rfl, turns⟩ := h.turns mirrors unblocked run
    · rw [Generator.next, h.unfinished, run] at call
      cases call
      exact Or.inl rfl
    · cases turns with
      | @yielded j k _ leads stepped offered commons follows =>
        rw [next_driven h.unfinished run nofun, offered, commons] at call
        cases offer : j.config.offer with
        | some v =>
          rw [offer] at call
          cases call
          have item : Offers original i (j.config.offer.toList ++ []) k :=
            .yield leads stepped (.stay .refl)
          rw [offer] at item
          exact Or.inr (Or.inl ⟨v, k, rfl, item, rfl, follows⟩)
        | none =>
          rw [offer] at call
          have before : ∀ {vs l}, Offers original k vs l → Offers original i vs l := by
            intro vs l later
            have whole : Offers original i (j.config.offer.toList ++ vs) l :=
              .yield leads stepped later
            rwa [offer] at whole
          have unblocked' : ¬ Blocks original k := fun later =>
            unblocked (leads.blocks (.yield stepped later))
          obtain diverged | ⟨v, l, same, offers, rest⟩ | ⟨same, finished, l, e, offers, ended⟩ :=
            ih follows unblocked' call
          · exact Or.inl diverged
          · exact Or.inr (Or.inl ⟨v, l, same, before offers, rest⟩)
          · exact Or.inr (Or.inr ⟨same, finished, l, e, before offers, ended⟩)
      | @ended j e ending _ leads stepped quiet finished sound =>
        rw [next_driven h.unfinished run sound, quiet] at call
        cases drives with
        | zero =>
          cases call
          exact Or.inl rfl
        | succ drives =>
          rw [next_finished finished] at call
          cases call
          exact Or.inr (Or.inr ⟨rfl, finished, j, e, .stay leads, stepped⟩)

/-- From a finished generator nothing is drawn. -/
theorem Draws.of_finished {ds : List Draw} (draws : Draws g c ds g' c')
    (finished : g.finished = true) :
    ds = List.replicate ds.length .exhausted ∧ g' = g ∧ c' = c := by
  induction draws with
  | nil => exact ⟨rfl, rfl, rfl⟩
  | @cons g g₁ g' c c₁ c' d ds drives steps call _ ih =>
    cases drives with
    | zero => cases call
    | succ drives =>
      rw [next_finished finished] at call
      cases call
      obtain ⟨same, rfl, rfl⟩ := ih finished
      refine ⟨?_, rfl, rfl⟩
      rw [List.length_cons, List.replicate_succ, ← same]

theorem Follows.draws (h : g.Follows program i) (mirrors : original.Mirrors program)
    (unblocked : ¬ Blocks original i) {ds : List Draw} (draws : Draws g c ds g' c')
    (same : c = i.commons) :
    ∃ vs n j, ds = vs.map .item ++ List.replicate n .exhausted ∧ Offers original i vs j ∧
      (n = 0 ∧ c' = j.commons ∧ g'.Follows program j ∨
        n ≠ 0 ∧ g'.finished = true ∧ ∃ e, j.step original = .ended e c') := by
  induction draws generalizing i with
  | nil => exact ⟨[], 0, i, rfl, .stay .refl, Or.inl ⟨rfl, same, h⟩⟩
  | @cons g g₁ g' c c₁ c' d ds drives steps call rest ih =>
    subst same
    obtain diverged | ⟨v, j, item, offers, same, follows⟩ | ⟨item, finished, j, e, offers, ended⟩ :=
      h.next mirrors unblocked call
    · cases diverged
    · cases item
      obtain ⟨vs, n, k, rfl, offers', last⟩ :=
        ih follows (fun later => unblocked (offers.blocks later)) same
      exact ⟨v :: vs, n, k, rfl, offers.append offers', last⟩
    · cases item
      obtain ⟨all, rfl, rfl⟩ := rest.of_finished finished
      refine ⟨[], ds.length + 1, j, ?_, offers, Or.inr ⟨Nat.succ_ne_zero _, finished, e, ended⟩⟩
      rw [List.map_nil, List.nil_append, List.replicate_succ, ← all]

/-! ## What is offered is drawn -/

section Complete

variable (h : g.Follows program i) (mirrors : original.Mirrors program)
  (unblocked : ¬ Blocks original i) (leads : Leads original i j)
include h mirrors unblocked leads

/-- A drive comes to its end where the interpretation yields or ends. -/
theorem Follows.drives (stops : ∀ l, j.step original ≠ .running l) :
    ∃ steps e s, (g.body.execute steps).run ⟨i.commons, g.fiber, g.body⟩ = (.finished e, s) ∧
      Turns original program g i e s := by
  obtain ⟨-, start, f₀, m₀, rank, opens, rfl, -, -, matched⟩ := id h
  have notBlocked : j.step original ≠ .blocked := fun blocked =>
    unblocked (leads.blocks (.here blocked))
  obtain ⟨steps, r, s, run, -⟩ := matched.comes mirrors leads stops notBlocked m₀
  have run' := Machine.run_execute_iff.2 ⟨r, (opens steps i.commons).trans run, rfl⟩
  refine ⟨steps, _, s, run', ?_⟩
  obtain diverged | ⟨e, same, turns⟩ := h.turns mirrors unblocked run'
  · cases diverged
  · cases same
    exact turns

theorem Follows.drives_yielded (yielded : j.step original = .yielded k) :
    ∃ steps s, (g.body.execute steps).run ⟨i.commons, g.fiber, g.body⟩ = (.finished .pending, s) ∧
      s.fiber.offered = j.config.offer ∧ s.commons = k.commons ∧
      (g.taking .pending s).Follows program k := by
  have stops : ∀ l, j.step original ≠ .running l := by
    intro l running
    cases yielded.symm.trans running
  obtain ⟨steps, e, s, run, turns⟩ := h.drives mirrors unblocked leads stops
  cases turns with
  | yielded leads' stepped offered commons follows =>
    obtain rfl := leads.unique leads' stops fun l running => nomatch stepped.symm.trans running
    cases yielded.symm.trans stepped
    exact ⟨steps, s, run, offered, commons, follows⟩
  | ended leads' stepped _ _ _ =>
    obtain rfl := leads.unique leads' stops fun l running => nomatch stepped.symm.trans running
    cases yielded.symm.trans stepped

theorem Follows.drives_ended {e : RunEnd} (ended : j.step original = .ended e c) :
    ∃ steps ending s,
      (g.body.execute steps).run ⟨i.commons, g.fiber, g.body⟩ = (.finished ending, s) ∧
      s.commons = c ∧ s.fiber.offered = none ∧ (g.taking ending s).finished = true ∧
      ∀ message, ending ≠ .panicked message := by
  have stops : ∀ l, j.step original ≠ .running l := by
    intro l running
    cases ended.symm.trans running
  obtain ⟨steps, ending, s, run, turns⟩ := h.drives mirrors unblocked leads stops
  cases turns with
  | yielded leads' stepped _ _ _ =>
    obtain rfl := leads.unique leads' stops fun l running => nomatch stepped.symm.trans running
    cases ended.symm.trans stepped
  | ended leads' stepped quiet finished sound =>
    obtain rfl := leads.unique leads' stops fun l running => nomatch stepped.symm.trans running
    cases ended.symm.trans stepped
    exact ⟨steps, ending, s, run, rfl, quiet, finished, sound⟩

/-- What can be drawn past a yield can be drawn before it, after what the yield offers. -/
theorem Follows.draws_yielded (yielded : j.step original = .yielded k) :
    ∃ g₁, Follows program g₁ k ∧ ∀ {ds g' c'}, j.config.offer.toList ≠ [] ∨ ds ≠ [] →
      Draws g₁ k.commons ds g' c' →
      Draws g i.commons (j.config.offer.toList.map .item ++ ds) g' c' := by
  obtain ⟨steps, s, run, offered, commons, follows⟩ :=
    h.drives_yielded mirrors unblocked leads yielded
  refine ⟨_, follows, fun {ds g' c'} some draws => ?_⟩
  have driven := fun steps' (le : steps ≤ steps') => next_driven (c := i.commons) h.unfinished
    (Machine.execute_mono le run) nofun
  rw [offered, commons] at driven
  cases offer : j.config.offer with
  | some v =>
    rw [offer] at driven
    exact .cons (driven steps le_rfl 0) draws
  | none =>
    rw [offer] at driven some
    cases draws with
    | nil => simp at some
    | @cons _ g₂ _ _ _ _ d ds drives' steps' call rest =>
      have called := next_mono (le_max_right steps steps') le_rfl call
      exact .cons ((driven _ (le_max_left ..) drives').trans called) rest

end Complete

theorem Follows.complete (h : g.Follows program i) (mirrors : original.Mirrors program)
    (unblocked : ¬ Blocks original i) (offers : Offers original i vs j) :
    ∃ g' c', Draws g i.commons (vs.map .item) g' c' := by
  induction offers generalizing g with
  | stay _ => exact ⟨g, _, .nil⟩
  | @yield i j k l vs leads yielded rest ih =>
    obtain ⟨g₁, follows, before⟩ := h.draws_yielded mirrors unblocked leads yielded
    obtain ⟨g', c', draws⟩ :=
      ih follows fun later => unblocked (leads.blocks (.yield yielded later))
    rw [List.map_append]
    by_cases none : j.config.offer.toList = [] ∧ vs.map Draw.item = []
    · rw [none.1, none.2]
      exact ⟨g, _, .nil⟩
    · exact ⟨g', c', before (not_and_or.1 none) draws⟩

theorem Follows.ends (h : g.Follows program i) (mirrors : original.Mirrors program)
    (unblocked : ¬ Blocks original i) (offers : Offers original i vs j) {e : RunEnd}
    (ended : j.step original = .ended e c) (n : Nat) :
    ∃ g', Draws g i.commons (vs.map .item ++ List.replicate (n + 1) .exhausted) g' c := by
  induction offers generalizing g with
  | @stay i j leads =>
    obtain ⟨steps, ending, s, run, rfl, quiet, finished, sound⟩ :=
      h.drives_ended mirrors unblocked leads ended
    have first : g.next (Machine.execute steps) 2 i.commons =
        (.finished .exhausted, s.commons, g.taking ending s) := by
      rw [next_driven h.unfinished run sound, quiet]
      exact next_finished finished 0
    refine ⟨g.taking ending s, .cons first ?_⟩
    induction n with
    | zero => exact .nil
    | succ n ih =>
      have again : (g.taking ending s).next (Machine.execute 0) 1 s.commons =
        (.finished .exhausted, s.commons, g.taking ending s) := next_finished finished 0
      exact .cons again ih
  | @yield i j k l vs leads yielded rest ih =>
    obtain ⟨g₁, follows, before⟩ := h.draws_yielded mirrors unblocked leads yielded
    obtain ⟨g', draws⟩ :=
      ih follows (fun later => unblocked (leads.blocks (.yield yielded later))) ended
    rw [List.map_append, List.append_assoc]
    exact ⟨g', before (Or.inr (by simp [List.replicate_succ])) draws⟩

/-! ## Generators over woven machines -/

theorem Follows.enumerates (h : g.Follows program i) (mirrors : original.Mirrors program)
    (unblocked : ¬ Blocks original i) : g.Enumerates original i where
  sound draws := by
    obtain ⟨vs, n, j, same, offers, ⟨none, commons, -⟩ | ⟨some, -, ended⟩⟩ :=
      h.draws mirrors unblocked draws rfl
    · exact ⟨vs, n, j, same, offers, Or.inl ⟨none, commons.symm⟩⟩
    · exact ⟨vs, n, j, same, offers, Or.inr ⟨some, ended⟩⟩
  complete offers := h.complete mirrors unblocked offers
  ends offers ended n := h.ends mirrors unblocked offers ended n
  finished {ds g' c'} draws exec drives c := by
    obtain ⟨vs, n, j, same, -, ⟨rfl, -, -⟩ | ⟨-, finished, -⟩⟩ :=
      h.draws mirrors unblocked draws rfl
    · have last : Draw.exhausted ∈ vs.map Draw.item := by
        rw [List.replicate_zero, List.append_nil] at same
        rw [← same]
        simp
      simp at last
    · exact next_finished finished drives
  unbroken {ds g' c'} draws drives steps message := by
    generalize call : g'.next (Machine.execute steps) drives c' = result
    obtain ⟨ending, c'', g''⟩ := result
    rintro rfl
    obtain ⟨vs, n, j, -, offers, ⟨-, rfl, follows⟩ | ⟨-, finished, -⟩⟩ :=
      h.draws mirrors unblocked draws rfl
    · obtain diverged | ⟨_, _, item, -⟩ | ⟨item, -⟩ :=
        follows.next mirrors (fun later => unblocked (offers.blocks later)) call
      · cases diverged
      · cases item
      · cases item
    · cases drives with
      | zero => cases call
      | succ drives =>
        rw [next_finished finished] at call
        cases call

/-- A generator over a woven unit enumerates what the original procedures offer. -/
theorem enumerates_woven {unit : CompilationUnit} {external : ExternalResolver}
    {config : AnalysisConfig} (clean : unit.WeavesCleanly external config) {entry : ProcId}
    {args : List Value} {commons : Commons}
    (unblocked : ¬ (Interpretation.ofCall entry args commons).Blocks ⟨unit.procedures⟩) :
    (ofBody (Machine.ofEntry (unit.wovenProgram external config) entry args)).Enumerates
      ⟨unit.procedures⟩ (.ofCall entry args commons) := by
  have start : (unit.wovenProgram external config).Matches (([] : List Caller).length + 1)
      (Interpretation.ofCall entry args commons).config (Config.ofCall entry args) .detached :=
    .call .nil rfl
  have opens := Machine.opens_call (unit.wovenProgram external config) entry args (f := .detached)
    rfl
  have follows : Follows (unit.wovenProgram external config)
      (ofBody (Machine.ofEntry (unit.wovenProgram external config) entry args))
      (.ofCall entry args commons) :=
    ⟨rfl, _, _, _, _, opens, rfl, Config.active_ofCall entry args, rfl, start⟩
  exact follows.enumerates clean.mirrors unblocked

end Generator

/-! ## A unit with something to draw -/

namespace Pairs

/-- Offers its argument, yields without an offer, and gives the successor of its argument. -/
def inner : Procedure :=
  Relay.straight "inner" [⟨⟨0⟩, some "n", .int, true⟩] [⟨⟨1⟩, some "next", .int, false⟩]
    [.call none Primitive.yield.call [.local ⟨0⟩], .call none Primitive.yield.call [],
      .assign ⟨1⟩ (.binary .add (.local ⟨0⟩) (.const (.int 1)))] (.local ⟨1⟩)

/-- Offers what the inner procedure makes of a number. -/
def outer : Procedure :=
  Relay.straight "outer" [] [⟨⟨0⟩, some "n", .int, false⟩]
    [.call (some ⟨0⟩) ⟨inner.id, .static⟩ [.const (.int 41)],
      .call none Primitive.yield.call [.local ⟨0⟩]] (.local ⟨0⟩)

def unit : CompilationUnit :=
  { name := "pairs", types := [], procedures := [inner, outer] }

theorem clean : unit.WeavesCleanly ExternalMetadata.empty .standard where
  unwoven := by decide
  notInitializer := by decide
  unsealed := by decide
  primitives := by decide
  failures := by decide +kernel

end Pairs

/-- Two items, around a yield that gives none, and then nothing. -/
theorem Generator.draws_pairs : ∃ g, Draws
    (ofBody (Machine.ofEntry (Pairs.unit.wovenProgram ExternalMetadata.empty .standard)
      Pairs.outer.id [])) .empty
    [.item (.int 41), .item (.int 42), .exhausted, .exhausted] g .empty := by
  have ends : (Interpretation.ofCall Pairs.outer.id [] .empty).Ends ⟨Pairs.unit.procedures⟩
      (.returned (.int 42)) .empty 3 :=
    Interpretation.ends_of_runFor 20 rfl
  obtain ⟨j, run, ended⟩ : ∃ j, Interpretation.offersFor ⟨Pairs.unit.procedures⟩ 20
      (.ofCall Pairs.outer.id [] .empty) = some ([.int 41, .int 42], j) ∧
      j.step ⟨Pairs.unit.procedures⟩ = .ended (.returned (.int 42)) .empty := ⟨_, rfl, rfl⟩
  exact (enumerates_woven Pairs.clean ends.not_blocks).ends
    (Interpretation.offers_of_offersFor 20 run) ended 1

end Resumable
