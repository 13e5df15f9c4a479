import Resumable.Proofs.Machine.Simulation
import Resumable.Proofs.Weave.CleanUnit

/-!
# Weaving preserves meaning

A machine that is driven on the woven procedures of a unit ends as an interpretation of
the original procedures does, and was suspended once for each yield and once for an exit
(`Machine.settles_iff_ends`).

Both directions use that every step of the machine is a part of a step of the
interpretation (`Program.Matches.step`).  A drive that ends has followed the interpretation
to its end or to a yield (`Matches.run_halts`, `Settles.ends`).  An interpretation that
ends is caught up with by the machine before each of its steps (`Matches.catches_up`,
`concludes_of_ends`).
-/

namespace Resumable

/-! ## Interpretations -/

namespace Interpretation

variable {program : Program} {i j : Interpretation} {e : RunEnd} {c : Commons} {n : Nat}

/-- Some steps without a yield. -/
abbrev Leads (program : Program) : Interpretation → Interpretation → Prop :=
  Relation.ReflTransGen fun i j => i.step program = .running j

theorem Leads.ends (h : Leads program i j) (ends : Ends program j e c n) :
    Ends program i e c n := by
  induction h using Relation.ReflTransGen.head_induction_on with
  | refl => exact ends
  | head step _ ih => exact .next step ih

theorem Leads.blocks (h : Leads program i j) (blocks : Blocks program j) :
    Blocks program i := by
  induction h using Relation.ReflTransGen.head_induction_on with
  | refl => exact blocks
  | head step _ ih => exact .next step ih

end Interpretation

/-! ## Drives -/

namespace Machine

variable {m m₀ : Machine} {f f₀ : Fiber} {c c' : Commons} {e : RunEnd} {n : Nat}
  {driver : Nat → Fiber → Fiber}

theorem run_execute_iff {fuel : Nat} {s s' : Scene Machine} {ending : DriveEnd} :
    (m.execute fuel).run s = (.finished ending, s') ↔
      ∃ r, (m.advance fuel).run s = (.finished r, s') ∧ driveEnd r = ending := by
  have whole := Drive.run_bind (m.advance fuel) (fun r => .done (driveEnd r)) s
  change (m.execute fuel).run s = _ at whole
  rw [whole]
  rcases (m.advance fuel).run s with ⟨r | message | _, s''⟩
  · simp [Drive.run]
    tauto
  · simp
  · simp

/-- What is left of a run after one drive of the machine. -/
inductive Concludes (driver : Nat → Fiber → Fiber) (s : Scene Machine) :
    Except MachineFault Outcome → RunEnd → Commons → Nat → Prop
  | ended {r : Except MachineFault Outcome} {e : RunEnd}
      (ends : Program.EndsAs r s.fiber.reason e) : Concludes driver s r e s.commons e.suspensions
  | again {e : RunEnd} {c : Commons} {n : Nat}
      (reason : s.fiber.reason.any PauseReason.isDone = false)
      (rest : Settles (fun n => driver (n + 1)) s.body (driver 0 s.fiber) s.commons e c n) :
    Concludes driver s (.ok .suspended) e c (n + 1)

theorem settles_iff :
    Settles driver m f c e c' n ↔ ∃ fuel r s,
      (m.advance fuel).run ⟨c, f, m⟩ = (.finished r, s) ∧ Concludes driver s r e c' n := by
  constructor
  · intro h
    cases h with
    | @ready _ _ _ _ fuel result s run =>
      obtain ⟨r, run, ending⟩ := run_execute_iff.1 run
      refine ⟨fuel, r, s, run, ?_⟩
      match r, ending with
      | .ok (.completed (.value v)), rfl => exact .ended .completed
      | .ok (.completed (.exception v)), rfl => exact .ended .completed
      | .error fault, rfl => exact .ended .faulted
    | @exited _ _ _ _ fuel result s run reason =>
      obtain ⟨r, run, ending⟩ := run_execute_iff.1 run
      refine ⟨fuel, r, s, run, ?_⟩
      match r, ending with
      | .ok .suspended, rfl => exact .ended (e := .exited result) (by rw [reason]; exact .exited)
    | @again _ _ _ _ _ fuel n _ s run reason rest =>
      obtain ⟨r, run, ending⟩ := run_execute_iff.1 run
      refine ⟨fuel, r, s, run, ?_⟩
      match r, ending with
      | .ok .suspended, rfl => exact .again reason rest
  · rintro ⟨fuel, r, s, run, concludes⟩
    cases concludes with
    | ended ends =>
      generalize paused : s.fiber.reason = reason at ends
      cases ends with
      | @completed completion =>
        cases completion <;> exact .ready (run_execute_iff.2 ⟨_, run, rfl⟩)
      | exited => exact .exited (run_execute_iff.2 ⟨_, run, rfl⟩) paused
      | faulted => exact .ready (run_execute_iff.2 ⟨_, run, rfl⟩)
    | again reason rest => exact .again (run_execute_iff.2 ⟨_, run, rfl⟩) reason rest

/-- A drive of a machine runs from a state of it. -/
def Opens (m : Machine) (f : Fiber) (start : Config) (f₀ : Fiber) (m₀ : Machine) : Prop :=
  ∀ fuel c, (m.advance fuel).run ⟨c, f, m⟩ = (start.run m₀.program fuel).run ⟨c, f₀, m₀⟩

/-- The first drive calls the entry. -/
theorem opens_call (program : Program) (entry : ProcId) (args : List Value)
    (clean : f.frames = []) :
    Opens (ofEntry program entry args) f (.ofCall entry args) f ⟨program, entry, none⟩ := by
  have fresh : f.isSuspended = false := by simp [Fiber.isSuspended, clean]
  intro fuel c
  show Drive.run (Drive.bind (.done f.isSuspended) _) _ = _
  rw [fresh]
  rfl

/-- A later drive enters the saved frames. -/
theorem opens_frames (saved : f.frames ≠ []) : Opens m f (.ofFrames f.frames) f.rewind.2 m := by
  have suspended : f.isSuspended = true := by simp [Fiber.isSuspended, saved]
  intro fuel c
  show Drive.run (Drive.bind (.done f.isSuspended) _) _ = _
  rw [suspended]
  rfl

end Machine

/-! ## From the machine to the interpretation -/

namespace Program

open Interpretation (Leads Ends Blocks)

variable {original program : Program} {i : Interpretation} {c : Config} {f : Fiber}
  {rank : Nat} {σ : Type} {m : σ}

/-- A drive of the machine comes to the point where the last step of the interpretation
is due. -/
theorem Matches.run_halts (mirrors : original.Mirrors program)
    (h : program.Matches rank i.config c f) (unblocked : ¬ Blocks original i) {fuel : Nat}
    {r : Except MachineFault Outcome} {s : Scene σ}
    (run : (c.run program fuel).run ⟨i.commons, f, m⟩ = (.finished r, s)) :
    ∃ j rank, Leads original i j ∧
      Advances original program j rank m (.finished (.halted r), s) := by
  induction fuel generalizing i c f rank with
  | zero => cases run
  | succ fuel ih =>
    rw [Config.run_succ, Drive.run_bind] at run
    rcases h.step (m := m) mirrors with blocked | advances
    · exact absurd (.here blocked) unblocked
    · generalize (c.step program : Drive σ Progress).run ⟨i.commons, f, m⟩ = result at *
      cases advances with
      | stutter lt still => exact ih still unblocked run
      | step stepped matched =>
        obtain ⟨rank, still⟩ := matched
        obtain ⟨j, rank, leads, advances⟩ :=
          ih still (fun later => unblocked (.next stepped later)) run
        exact ⟨j, rank, .head stepped leads, advances⟩
      | ended stepped halts =>
        cases run
        exact ⟨i, rank, .refl, .ended stepped halts⟩
      | yielded stepped reason held resumed =>
        cases run
        exact ⟨i, rank, .refl, .yielded stepped reason held resumed⟩

end Program

theorem Program.EndsAs.unique {r : Except MachineFault Outcome} {reason : Option PauseReason}
    {e e' : RunEnd} (h : Program.EndsAs r reason e) (h' : Program.EndsAs r reason e') : e = e' := by
  cases h with
  | completed =>
    cases h'
    rfl
  | exited =>
    cases h'
    rfl
  | faulted =>
    cases h'
    rfl

namespace Machine

variable {original : Program} {m m₀ : Machine} {f f₀ : Fiber} {commons commons' : Commons}
  {start : Config} {e : RunEnd} {rank : Nat} {driver : Nat → Fiber → Fiber} {i : Interpretation}

theorem Settles.ends {k : Nat} (settles : Settles driver m f commons e commons' k)
    (keeps : ∀ n f, (driver n f).frames = f.frames) (mirrors : original.Mirrors m₀.program)
    (opens : m.Opens f start f₀ m₀) (h : m₀.program.Matches rank i.config start f₀)
    (same : i.commons = commons) (unblocked : ¬ i.Blocks original) :
    ∃ n, i.Ends original e commons' n ∧ k = n + e.suspensions := by
  induction k using Nat.strong_induction_on generalizing m f commons start f₀ rank i driver with
  | _ k ih =>
    subst same
    obtain ⟨fuel, r, s, run, concludes⟩ := settles_iff.1 settles
    rw [opens] at run
    obtain ⟨j, rank', leads, advances⟩ := h.run_halts mirrors unblocked run
    cases concludes with
    | ended ends =>
      cases advances with
      | ended stepped halts =>
        obtain rfl := ends.unique halts
        exact ⟨0, leads.ends (.last stepped), (Nat.zero_add _).symm⟩
      | yielded stepped reason held resumed =>
        rw [reason] at ends
        cases ends
    | @again e c n reason rest =>
      cases advances with
      | ended stepped halts =>
        generalize paused : Fiber.reason _ = reason' at halts reason
        cases halts
        cases reason
      | @yielded j' f' stepped _ held resumed =>
        have kept := keeps 0 f'
        have again := resumed (driver 0 f').rewind.2 rfl
        rw [← kept] at again held
        have unblocked' : ¬ j'.Blocks original :=
          fun later => unblocked (leads.blocks (.yield stepped later))
        obtain ⟨n', ends, count⟩ := ih n (Nat.lt_succ_self n) rest (fun n => keeps (n + 1))
          (opens_frames held) again rfl unblocked'
        refine ⟨n' + 1, leads.ends (.yield stepped ends), ?_⟩
        rw [count, Nat.add_right_comm]

end Machine

/-! ## From the interpretation to the machine -/

/-- A run comes to an end of some kind, if it may take enough steps. -/
def Config.Comes {σ : Type} (program : Program) (c : Config) (s : Scene σ)
    (post : Except MachineFault Outcome → Scene σ → Prop) : Prop :=
  ∃ fuel r s', (c.run program fuel).run s = (.finished r, s') ∧ post r s'

namespace Program

variable {original program : Program} {i : Interpretation} {c c' : Config} {f : Fiber}
  {rank : Nat} {σ : Type} {m : σ} {s s' : Scene σ}
  {post : Except MachineFault Outcome → Scene σ → Prop}

theorem comes_of_step (step : (c.step program).run s = (.finished (.running c'), s'))
    (rest : c'.Comes program s' post) : c.Comes program s post := by
  obtain ⟨fuel, r, s'', run, holds⟩ := rest
  refine ⟨fuel + 1, r, s'', ?_, holds⟩
  rw [Config.run_succ, Drive.run_bind, step]
  exact run

theorem comes_of_halt {r : Except MachineFault Outcome}
    (step : (c.step program).run s = (.finished (.halted r), s')) (holds : post r s') :
    c.Comes program s post := by
  refine ⟨1, r, s', ?_, holds⟩
  rw [Config.run_succ, Drive.run_bind, step]
  rfl

/-- The machine catches up with the interpretation: after some steps, its next step is one
that the interpretation takes as well. -/
theorem Matches.catches_up (mirrors : original.Mirrors program)
    (h : program.Matches rank i.config c f) (unblocked : i.step original ≠ .blocked) (m : σ) :
    ∃ (c' : Config) (f' : Fiber), (∀ post, c'.Comes program ⟨i.commons, f', m⟩ post →
        c.Comes program ⟨i.commons, f, m⟩ post) ∧
      Advances original program i 0 m ((c'.step program).run ⟨i.commons, f', m⟩) := by
  induction rank using Nat.strong_induction_on generalizing c f with
  | _ rank ih =>
    have advances := (h.step (m := m) mirrors).resolve_left unblocked
    generalize step : (c.step program : Drive σ Progress).run ⟨i.commons, f, m⟩ = result at advances
    cases advances with
    | stutter lt still =>
      obtain ⟨c', f', back, advances⟩ := ih _ lt still
      exact ⟨c', f', fun post comes => comes_of_step step (back post comes), advances⟩
    | step stepped matched => exact ⟨c, f, fun _ => (·), step ▸ .step stepped matched⟩
    | ended stepped halts => exact ⟨c, f, fun _ => (·), step ▸ .ended stepped halts⟩
    | yielded stepped reason held resumed =>
      exact ⟨c, f, fun _ => (·), step ▸ .yielded stepped reason held resumed⟩

variable {j : Interpretation} {e : RunEnd} {commons : Commons} {result : Ending Progress × Scene σ}

theorem Advances.of_ended (h : Advances original program i 0 m result)
    (ended : i.step original = .ended e commons) :
    ∃ r f, result = (.finished (.halted r), ⟨commons, f, m⟩) ∧ EndsAs r f.reason e := by
  cases h with
  | stutter lt _ => cases lt
  | step stepped _ =>
    rw [ended] at stepped
    cases stepped
  | @ended r e f stepped halts =>
    rw [ended] at stepped
    cases stepped
    exact ⟨r, f, rfl, halts⟩
  | yielded stepped _ _ _ =>
    rw [ended] at stepped
    cases stepped

theorem Advances.of_running (h : Advances original program i 0 m result)
    (running : i.step original = .running j) :
    ∃ c f, result = (.finished (.running c), ⟨j.commons, f, m⟩) ∧
      program.Matched j.config c f := by
  cases h with
  | stutter lt _ => cases lt
  | @step j c f stepped matched =>
    rw [running] at stepped
    cases stepped
    exact ⟨c, f, rfl, matched⟩
  | ended stepped _ =>
    rw [running] at stepped
    cases stepped
  | yielded stepped _ _ _ =>
    rw [running] at stepped
    cases stepped

theorem Advances.of_yielded (h : Advances original program i 0 m result)
    (yielded : i.step original = .yielded j) :
    ∃ f : Fiber, result = (.finished (.halted (.ok .suspended)), ⟨j.commons, f, m⟩) ∧
      f.reason = some .yielded ∧ f.frames ≠ [] ∧
      ∀ f' : Fiber, f'.frames = [] → program.Matches 7 j.config (.ofFrames f.frames) f' := by
  cases h with
  | stutter lt _ => cases lt
  | step stepped _ =>
    rw [yielded] at stepped
    cases stepped
  | ended stepped _ =>
    rw [yielded] at stepped
    cases stepped
  | @yielded j f stepped reason held resumed =>
    rw [yielded] at stepped
    cases stepped
    exact ⟨f, rfl, reason, held, resumed⟩

end Program

namespace Machine

variable {original : Program} {m : Machine} {f : Fiber} {commons : Commons} {c : Config}
  {e : RunEnd} {rank n : Nat} {i : Interpretation}

theorem concludes_of_ends (ends : i.Ends original e commons n)
    (mirrors : original.Mirrors m.program) (h : m.program.Matches rank i.config c f)
    {driver : Nat → Fiber → Fiber} (keeps : ∀ n f, (driver n f).frames = f.frames) :
    c.Comes m.program ⟨i.commons, f, m⟩ fun r s =>
      Concludes driver s r e commons (n + e.suspensions) := by
  induction ends generalizing c f rank driver with
  | last ended =>
    obtain ⟨c', f', back, advances⟩ := h.catches_up mirrors (by rw [ended]; exact nofun) m
    obtain ⟨r, f'', step, halts⟩ := advances.of_ended ended
    refine back _ (Program.comes_of_halt step ?_)
    rw [Nat.zero_add]
    exact .ended halts
  | next running rest ih =>
    obtain ⟨c', f', back, advances⟩ := h.catches_up mirrors (by rw [running]; exact nofun) m
    obtain ⟨c'', f'', step, rank', matched⟩ := advances.of_running running
    exact back _ (Program.comes_of_step step (ih matched keeps))
  | @yield i j e c n yielded rest ih =>
    obtain ⟨c', f', back, advances⟩ := h.catches_up mirrors (by rw [yielded]; exact nofun) m
    obtain ⟨f'', step, reason, held, resumed⟩ := advances.of_yielded yielded
    refine back _ (Program.comes_of_halt step ?_)
    have kept := keeps 0 f''
    have again := resumed (driver 0 f'').rewind.2 rfl
    rw [← kept] at again held
    obtain ⟨fuel, r, s, run, concludes⟩ := ih again fun n => keeps (n + 1)
    rw [Nat.add_right_comm]
    refine .again (by rw [reason]; rfl) (settles_iff.2 ⟨fuel, r, s, ?_, concludes⟩)
    rw [opens_frames held]
    exact run

end Machine

theorem CompilationUnit.WeavesCleanly.mirrors {unit : CompilationUnit}
    {external : ExternalResolver} {config : AnalysisConfig}
    (clean : unit.WeavesCleanly external config) :
    Program.Mirrors ⟨unit.procedures⟩ (unit.wovenProgram external config) where
  unknown := by
    intro id unknown
    cases found : (unit.wovenProgram external config).procedure? id with
    | none => rfl
    | some w =>
      obtain ⟨i, p, here, -, same⟩ := clean.exists_of_procedure? found
      have none := List.find?_eq_none.1 unknown p
        (List.mem_reverse.2 (List.mem_of_getElem? here))
      simp [same] at none
  known := by
    intro id p found
    obtain rfl := Program.id_of_procedure? found
    obtain ⟨i, here⟩ := List.getElem?_of_mem
      (List.mem_reverse.1 (List.mem_of_find?_eq_some found))
    exact ⟨_, clean.procedure?_eq here, (clean.id_result here).2, clean.counterpart here⟩

/-- Weaving preserves meaning across every suspension. -/
theorem Machine.settles_iff_ends {unit : CompilationUnit} {external : ExternalResolver}
    {config : AnalysisConfig} (clean : unit.WeavesCleanly external config) {entry : ProcId}
    {args : List Value} {commons commons' : Commons}
    (unblocked : ¬ (Interpretation.ofCall entry args commons).Blocks ⟨unit.procedures⟩)
    {driver : Nat → Fiber → Fiber} (keeps : ∀ n f, (driver n f).frames = f.frames) {e : RunEnd}
    {k : Nat} :
    Settles driver (ofEntry (unit.wovenProgram external config) entry args) .detached commons e
        commons' k ↔
      ∃ n, (Interpretation.ofCall entry args commons).Ends ⟨unit.procedures⟩ e commons' n ∧
        k = n + e.suspensions := by
  have start : (unit.wovenProgram external config).Matches (([] : List Caller).length + 1)
      (Interpretation.ofCall entry args commons).config (Config.ofCall entry args) .detached :=
    .call .nil rfl
  have opens := opens_call (unit.wovenProgram external config) entry args (f := .detached) rfl
  constructor
  · intro settles
    exact settles.ends keeps clean.mirrors opens start rfl unblocked
  · rintro ⟨n, ends, rfl⟩
    obtain ⟨fuel, r, s, run, concludes⟩ := concludes_of_ends (m := ⟨_, entry, none⟩) ends
      clean.mirrors start keeps
    exact settles_iff.2 ⟨fuel, r, s, (opens fuel commons).trans run, concludes⟩

/-- A drive that is left once by the yield. -/
theorem Machine.settles_outer : ∃ commons,
    commons.output = [.int 42] ∧
      Settles (fun _ f => f) (ofEntry Relay.program Relay.outer.id []) .detached .empty
        (.returned (.int 42)) commons 1 := by
  have ends : (Interpretation.ofCall Relay.outer.id [] .empty).Ends ⟨Relay.unit.procedures⟩
      (.returned (.int 42)) (Commons.empty.print (.int 42)) 1 :=
    Interpretation.ends_of_runFor 20 rfl
  exact ⟨_, rfl, (settles_iff_ends Relay.clean ends.not_blocks fun _ _ => rfl).2 ⟨1, ends, rfl⟩⟩

end Resumable
