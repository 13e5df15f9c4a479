import Resumable.Machine.Body
import Resumable.Proofs.Machine.Preservation
import Resumable.Proofs.Weave.CleanUnit

/-!
# Resuming a cleanly woven program

A machine is driven again and again on one fiber (`Machine.Driven`).  Between the drives
anything may happen to what tasks share and to the fiber, its saved frames apart.

If the program was woven cleanly, no drive ends in a fault of the resumption machinery
(`Driven.not_isResumption`), and after every drive that leaves the task waiting the
saved frames are a chain of calls from the primitive that waits out to the entry
(`Driven.frames_linked`).
-/

namespace Resumable

namespace Machine

/-- The machines and fibers between two drives of one task. -/
inductive Driven (program : Program) (entry : ProcId) (args : List Value) :
    Machine → Fiber → Prop
  | start {f : Fiber} (clean : f.frames = []) :
    Driven program entry args (ofEntry program entry args) f
  | drive {m m' : Machine} {f f₀ f' : Fiber} {fuel : Nat}
      {e : Ending (Except MachineFault Outcome)} (before : Driven program entry args m f)
      (kept : f₀.frames = f.frames) (run : Drive.Runs (m.advance fuel) f₀ m e f' m')
      (ended : e ≠ .diverged) : Driven program entry args m' f'

/-- The end of a drive is what the driver of the body is told. -/
theorem runs_execute {m m' : Machine} {f f' : Fiber} {fuel : Nat}
    {r : Except MachineFault Outcome} (run : Drive.Runs (m.advance fuel) f m (.finished r) f' m') :
    Drive.Runs (m.execute fuel) f m (.finished (driveEnd r)) f' m' :=
  Drive.Runs.bind run .done

end Machine

theorem CompilationUnit.WeavesCleanly.faithful {unit : CompilationUnit}
    {external : ExternalResolver} {config : AnalysisConfig}
    (clean : unit.WeavesCleanly external config) :
    (unit.wovenProgram external config).Faithful := by
  intro id w found body
  obtain ⟨i, p, here, rfl, -⟩ := clean.exists_of_procedure? found
  rw [(clean.id_result here).2] at body
  obtain ⟨live, work⟩ := clean.counterpart here body
  exact ⟨live, p, work⟩

namespace Machine

variable {program : Program} {entry : ProcId} {args : List Value} {m m' : Machine}
  {f f₀ f' : Fiber} {fuel : Nat} {e : Ending (Except MachineFault Outcome)}

/-- A drive of a machine that holds nothing but frames of its callers ends properly. -/
theorem advance_halts (faithful : m.program.Faithful)
    (saved : m.program.Saved m.entry f.frames) (run : Drive.Runs (m.advance fuel) f m e f' m') :
    m'.program = m.program ∧ m'.entry = m.entry ∧
      Drive.Meets (m.program.Halted m.entry) e f' := by
  obtain ⟨program, entry, args⟩ := m
  unfold advance at run
  cases run with
  | refused answer => cases answer
  | answered answer rest =>
    cases answer
    cases frames : f.frames with
    | cons frame more =>
      have suspended : f.isSuspended = true := by simp [Fiber.isSuspended, frames]
      change Drive.Runs (Drive.bind (.done f.isSuspended) _) f _ e f' m' at rest
      rw [suspended] at rest
      cases rest with
      | refused answer => cases answer
      | answered answer rest =>
        cases answer
        have sane : program.Sane entry (Config.ofFrames f.frames) f.rewind.2 := .resumed saved rfl
        obtain ⟨rfl, meets⟩ := sane.run_halts faithful fuel _ _ _ _ rest
        exact ⟨rfl, rfl, meets⟩
    | nil =>
      have fresh : f.isSuspended = false := by simp [Fiber.isSuspended, frames]
      change Drive.Runs (Drive.bind (.done f.isSuspended) _) f _ e f' m' at rest
      rw [fresh] at rest
      cases args with
      | none =>
        cases rest
        exact ⟨rfl, rfl, frames, rfl⟩
      | some args =>
        cases rest with
        | commit rest =>
          have sane : program.Sane entry (Config.ofCall entry args) f :=
            .call ⟨entry, .nil, .nil⟩ frames
          obtain ⟨rfl, meets⟩ := sane.run_halts faithful fuel _ _ _ _ rest
          exact ⟨rfl, rfl, meets⟩

theorem Driven.saved (faithful : program.Faithful) (driven : Driven program entry args m f) :
    m.program = program ∧ m.entry = entry ∧ program.Saved entry f.frames := by
  induction driven with
  | start clean =>
    rw [clean]
    exact ⟨rfl, rfl, .linked .nil⟩
  | @drive m m' f f₀ f' fuel e _ kept run ended ih =>
    obtain ⟨rfl, rfl, saved⟩ := ih
    rw [← kept] at saved
    obtain ⟨sameProgram, sameEntry, meets⟩ := advance_halts faithful saved run
    refine ⟨sameProgram, sameEntry, ?_⟩
    have none : f'.frames = [] → m.program.Saved m.entry f'.frames := by
      intro clean
      rw [clean]
      exact .linked .nil
    match e, meets with
    | .finished (.ok .suspended), saving =>
      obtain ⟨which, inner, frames, named, suspends, links, held⟩ := saving.frames
      rcases held with ⟨slots, held⟩ | ⟨held, -⟩
      · rw [held]
        exact .retry named suspends links
      · rw [held]
        exact .linked links
    | .finished (.ok (.completed _)), clean => exact none clean
    | .finished (.error _), ⟨clean, _⟩ => exact none clean
    | .violated _, clean => exact none clean
    | .diverged, _ => exact absurd rfl ended

theorem Driven.halts (faithful : program.Faithful) (driven : Driven program entry args m f)
    (kept : f₀.frames = f.frames) (run : Drive.Runs (m.advance fuel) f₀ m e f' m') :
    Drive.Meets (program.Halted entry) e f' := by
  obtain ⟨rfl, rfl, saved⟩ := driven.saved faithful
  rw [← kept] at saved
  exact (advance_halts faithful saved run).2.2

/-! ## No fault of the resumption machinery -/

/-- However a machine on cleanly woven procedures is driven, no drive ends in a fault that
concerns suspending or resuming. -/
theorem Driven.not_isResumption {unit : CompilationUnit} {external : ExternalResolver}
    {config : AnalysisConfig} (clean : unit.WeavesCleanly external config)
    (driven : Driven (unit.wovenProgram external config) entry args m f)
    (kept : f₀.frames = f.frames) {fault : MachineFault}
    (run : Drive.Runs (m.advance fuel) f₀ m (.finished (.error fault)) f' m') :
    fault.isResumption = false :=
  (driven.halts clean.faithful kept run).2

/-- A call of an unknown procedure, after the code was resumed. -/
theorem driven_lost : ∃ m f f',
    Driven Relay.program Relay.lost.id [] m f ∧
      Drive.Runs (m.advance 20) f m (.finished (.error (.unknownProcedure Relay.missing))) f' m ∧
      (MachineFault.unknownProcedure Relay.missing).isResumption = false := by
  let s : Scene Machine := ⟨.empty, .detached, .ofEntry Relay.program Relay.lost.id []⟩
  let s' := ((s.body.advance 20).run s).2
  have first := Drive.runs_run (s.body.advance 20) s
  have driven : Driven Relay.program Relay.lost.id [] s'.body s'.fiber :=
    .drive (.start rfl) rfl first nofun
  have second : Drive.Runs (s'.body.advance 20) s'.fiber s'.body
      (.finished (.error (.unknownProcedure Relay.missing))) _ _ :=
    Drive.runs_run (s'.body.advance 20) s'
  exact ⟨s'.body, s'.fiber, _, driven, second,
    driven.not_isResumption Relay.clean rfl second⟩

end Machine

/-! ## The chain of saved frames -/

/-- The frame is one of the procedure, or of the primitive, that an identity names. -/
def Frame.IsOf (frame : Frame) (id : ProcId) : Prop :=
  match Primitive.ofProc? id with
  | some which => frame.proc = which.procId
  | none => frame.proc = id

/-- A frame of a woven procedure that waits for the end of the call that another frame
belongs to. -/
def Program.WaitsFor (program : Program) (inner frame : Frame) : Prop :=
  ∃ w, program.procedure? frame.proc = some w ∧ w.attrs.woven = true ∧
    frame.state ≠ StateId.entry ∧
    (∃ r, w.state? frame.state = some r ∧ frame.slots.length = r.live.length) ∧
    (∃ b ∈ w.blocks, ∃ dst func args save next,
      b.terminator = .suspendCall dst func args frame.state save next) ∧
    ∀ b ∈ w.blocks, ∀ dst func args save next,
      b.terminator = .suspendCall dst func args frame.state save next → inner.IsOf func.target

/-- A frame of a primitive that waits, and then the frames of its callers out to a call
of the entry. -/
structure Program.Chained (program : Program) (entry : ProcId) (frames : List Frame) :
    Prop where
  innermost : ∃ (which : Primitive) (slots : List Value) (rest : List Frame),
    which.suspends = true ∧
    frames = ⟨which.procId, Primitive.retryState, slots⟩ :: rest
  linked : frames.IsChain program.WaitsFor
  outermost : ∀ last ∈ frames.getLast?, last.IsOf entry

namespace Program

variable {program : Program} {entry target : ProcId} {frame : Frame} {frames : List Frame}

/-- In a list of blocks whose suspending calls carry different states, a state belongs to
one of them. -/
theorem block_of_state {blocks : List Block}
    (nodup : ((blocks.filterMap fun b => b.terminator.suspension?).map Prod.fst).Nodup)
    {b c : Block} (mem : b ∈ blocks) (mem' : c ∈ blocks) {state : StateId}
    {save save' : List LocalId} (carries : b.terminator.suspension? = some (state, save))
    (carries' : c.terminator.suspension? = some (state, save')) : b = c := by
  induction blocks with
  | nil => cases mem
  | cons d rest ih =>
    have listed : ∀ {x : Block} {saved : List LocalId}, x ∈ rest →
        x.terminator.suspension? = some (state, saved) →
          state ∈ (rest.filterMap fun b => b.terminator.suspension?).map Prod.fst :=
      fun there here => List.mem_map.2 ⟨_, List.mem_filterMap.2 ⟨_, there, here⟩, rfl⟩
    rcases List.mem_cons.1 mem with rfl | below
    · rcases List.mem_cons.1 mem' with rfl | below'
      · rfl
      · simp only [List.filterMap_cons, carries, List.map_cons, List.nodup_cons] at nodup
        exact absurd (listed below' carries') nodup.1
    · rcases List.mem_cons.1 mem' with rfl | below'
      · simp only [List.filterMap_cons, carries', List.map_cons, List.nodup_cons] at nodup
        exact absurd (listed below carries) nodup.1
      · refine ih ?_ below below'
        refine nodup.sublist (List.Sublist.map _ ?_)
        exact (List.sublist_cons_self d rest).filterMap _

/-- Frames that are linked to a call wait for a frame of that call. -/
theorem Links.chained (links : program.Links target frames entry) (head : frame.IsOf target) :
    (frame :: frames).IsChain program.WaitsFor ∧
      ∀ last ∈ (frame :: frames).getLast?, last.IsOf entry := by
  induction links generalizing frame with
  | nil =>
    refine ⟨List.isChain_singleton _, fun last mem => ?_⟩
    cases mem
    exact head
  | @cons target bottom outer frames live p w b more dst save next id hosts block suffix point
      length rest ih =>
    have self : outer.IsOf outer.proc := by
      unfold Frame.IsOf
      rw [← id, hosts.notPrimitive]
    obtain ⟨chain, last⟩ := ih self
    obtain ⟨r, recorded, slots⟩ := point.resumes.recorded
    obtain ⟨c, mem, func, args, called, carries⟩ := point.called
    have waits : program.WaitsFor frame outer := by
      refine ⟨w, id ▸ hosts.found, point.resumes.woven, point.resumes.fresh, ⟨r, recorded, ?_⟩,
        ⟨c, mem, dst, func, args, save, next, carries⟩, ?_⟩
      · rw [length, ← slots, List.length_map]
      · intro c' mem' dst' func' args' save' next' carries'
        obtain rfl := block_of_state hosts.work.states mem' mem (by rw [carries']; rfl)
          (by rw [carries]; rfl)
        rw [carries] at carries'
        cases carries'
        rw [called]
        exact head
    exact ⟨List.isChain_cons_cons.2 ⟨waits, chain⟩, last⟩

end Program

/-- After every drive of a machine on cleanly woven procedures that leaves the task
waiting, the saved frames are a chain of calls from the primitive that waits out to the
entry. -/
theorem Machine.Driven.frames_linked {unit : CompilationUnit} {external : ExternalResolver}
    {config : AnalysisConfig} {entry : ProcId} {args : List Value} {m m' : Machine}
    {f f₀ f' : Fiber} {fuel : Nat} (clean : unit.WeavesCleanly external config)
    (driven : Driven (unit.wovenProgram external config) entry args m f)
    (kept : f₀.frames = f.frames)
    (run : Drive.Runs (m.advance fuel) f₀ m (.finished (.ok .suspended)) f' m')
    (waits : f'.reason.any PauseReason.isDone = false) :
    (unit.wovenProgram external config).Chained entry f'.frames := by
  obtain ⟨which, inner, frames, named, suspends, links, held⟩ :=
    (driven.halts clean.faithful kept run).frames
  obtain ⟨slots, held⟩ := held.resolve_right fun ended => by simp [waits] at ended
  have head : (⟨which.procId, Primitive.retryState, slots⟩ : Frame).IsOf inner := by
    unfold Frame.IsOf
    rw [named]
  obtain ⟨linked, outermost⟩ := links.chained head
  rw [held]
  exact ⟨⟨which, slots, frames, suspends, rfl⟩, linked, outermost⟩

/-- The outer procedure waits for the inner one, which waits for the yield. -/
theorem Machine.frames_outer : ∃ m' f',
    Drive.Runs ((Machine.ofEntry Relay.program Relay.outer.id []).advance 20) .detached
      (Machine.ofEntry Relay.program Relay.outer.id []) (.finished (.ok .suspended)) f' m' ∧
      f'.frames.map Frame.proc = [Primitive.yield.procId, Relay.inner.id, Relay.outer.id] ∧
      Relay.program.Chained Relay.outer.id f'.frames := by
  let s : Scene Machine := ⟨.empty, .detached, .ofEntry Relay.program Relay.outer.id []⟩
  have driven : Driven Relay.program Relay.outer.id [] s.body s.fiber := .start rfl
  have run : Drive.Runs (s.body.advance 20) s.fiber s.body (.finished (.ok .suspended)) _ _ :=
    Drive.runs_run (s.body.advance 20) s
  exact ⟨_, _, run, rfl, Driven.frames_linked Relay.clean driven rfl run rfl⟩

end Resumable
