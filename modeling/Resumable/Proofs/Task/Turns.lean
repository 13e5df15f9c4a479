import Resumable.Proofs.Task.Notification
import Resumable.Task.Crew

/-!
# Workers in a shift

A shift shows a pool (`Shift.Shows`) when the two have the same tasks, and some of them are
driven.  What becomes of the pool can happen in the shift: a drive begins, asks for something
and ends (`Shows.begin`, `Shows.request`, `Shows.endDrive`), so one scheduler can drain the
queue (`Shows.step?`) and any number of workers can take turns (`Shows.turn?`).  What holds of
every shift therefore holds of every pool, whatever the bodies of its tasks are.  No message is
on its way between two turns, so requests for exit messages have been answered then
(`Shows.answered`).
-/

namespace Resumable

/-! ## Fibers -/

namespace TaskPool

variable {σ : Type} {s s' : TaskPool σ} {t u : TaskId} {engine engine' : Engine σ}

/-- The fiber of a task between two drives. -/
def fiber (s : TaskPool σ) (t : TaskId) : Fiber :=
  ((s.engine? t).map (·.fiber)).getD (.ofTask (some t))

theorem fiber_eq (found : s.engine? t = some engine) : s.fiber t = engine.fiber := by
  unfold fiber
  rw [found]
  rfl

theorem fiber_congr (same : s'.engines = s.engines) : s'.fiber t = s.fiber t := by
  unfold fiber engine?
  rw [same]

theorem fiber_set (found : s.engine? t = some engine)
    (engines : s'.engines = s.engines.set (t.number - 1) engine') :
    s'.fiber u = if u = t then engine'.fiber else s.fiber u := by
  unfold fiber
  rw [engine?_set found engines]
  split <;> rfl

/-- A new task has a new fiber. -/
theorem fiber_spawn (engines : s.engines.length = s.commons.tasks.length) (body : σ) :
    (s.spawn body).2.fiber u = s.fiber u := by
  unfold fiber
  rw [engine?_spawn engines]
  split
  · rename_i new
    rw [new, engine?_spawn_new engines]
    rfl
  · rfl

/-- A drive that comes to its end leaves a fiber that listens to nothing, or its task
pauses. -/
theorem endDrive_finished (s : TaskPool σ) (t : TaskId) (e : DriveEnd) (scene : Scene σ) :
    (∃ result reason, (s.endDrive t (.finished e) scene).2 =
      { commons := (scene.commons.stopListening scene.fiber).1.finish t result
        engines := s.engines.set (t.number - 1)
          { body := scene.body, fiber := { scene.fiber with reason, listening := [] } } }) ∨
    (scene.fiber.reason.any (·.isDone)) = false ∧ (s.endDrive t (.finished e) scene).2 =
      { commons := conclude scene.commons t .pending scene.fiber.reason
        engines := s.engines.set (t.number - 1)
          { body := scene.body, fiber := { scene.fiber with reason := none } } } := by
  have quiet := Commons.stopListening_reason scene.commons scene.fiber none
  have fiber := Commons.stopListening_fiber scene.commons
  cases e with
  | panicked message =>
    refine Or.inl ⟨.error (.panicked message), scene.fiber.reason, ?_⟩
    simp only [endDrive, takeReason, conclude, fiber]
  | ready result =>
    refine Or.inl ⟨result, none, ?_⟩
    simp only [endDrive, takeReason, Fiber.takeReason, conclude, quiet, fiber]
  | pending =>
    unfold endDrive takeReason Fiber.takeReason
    cases reason : scene.fiber.reason with
    | none => exact Or.inr ⟨rfl, rfl⟩
    | some why =>
      cases why with
      | done result =>
        refine Or.inl ⟨result, none, ?_⟩
        simp only [PauseReason.isDone, Option.any_some, if_true, conclude, quiet, fiber]
      | _ => exact Or.inr ⟨rfl, rfl⟩

end TaskPool

/-! ## Pools in a shift -/

namespace Shift

variable {σ : Type} {exec : σ → Drive σ DriveEnd} {k k' : Shift} {s s' : TaskPool σ} {t : TaskId}
  {f f' : Fiber} {driven driven' : List (TaskId × Fiber)} {asked : List (TaskId × ExitBoxId)}
  {c : Commons}

/-- A shift and a pool have the same tasks.  `driven` has the tasks that are driven, with
their fibers. -/
structure Shows (k : Shift) (s : TaskPool σ) (driven : List (TaskId × Fiber))
    (asked : List (TaskId × ExitBoxId)) : Prop where
  sound : k.Sound
  commons : k.commons = s.commons
  engines : s.engines.length = s.commons.tasks.length
  home : ∀ t, (∀ d ∈ driven, d.1 ≠ t) → k.fibers t = s.fiber t
  posted : ∀ d ∈ driven, k.post d.1 = .driven ∧ k.fibers d.1 = d.2
  distinct : (driven.map (·.1)).Nodup
  due : k.due = []
  asks : k.asked = asked

theorem shows_empty : initial.Shows (.empty : TaskPool σ) [] [] where
  sound := sound_initial
  commons := rfl
  engines := rfl
  home t _ := by
    unfold TaskPool.fiber TaskPool.engine?
    split <;> rfl
  posted d member := by cases member
  distinct := List.nodup_nil
  due := rfl
  asks := rfl

namespace Shows

/-- Something happens before. -/
theorem after {k₁ : Shift} (run : Reaches k k₁)
    (rest : ∃ k', Reaches k₁ k' ∧ k'.Shows s driven asked) :
    ∃ k', Reaches k k' ∧ k'.Shows s driven asked := by
  obtain ⟨k', run', shown⟩ := rest
  exact ⟨k', run.trans run', shown⟩

/-- The order of the tasks that are driven does not matter. -/
theorem perm (h : k.Shows s driven asked) (same : driven.Perm driven') :
    k.Shows s driven' asked where
  sound := h.sound
  commons := h.commons
  engines := h.engines
  home t outside := h.home t fun d member => outside d (same.mem_iff.1 member)
  posted d member := h.posted d (same.mem_iff.2 member)
  distinct := (same.map _).nodup_iff.1 h.distinct
  due := h.due
  asks := h.asks

theorem orderly (h : k.Shows s driven asked) : s.commons.Orderly k.Away := by
  rw [← h.commons]
  exact h.sound.orderly

/-- One task moves on. -/
theorem move (h : k.Shows s driven asked) (sound : k'.Sound) (commons : k'.commons = s'.commons)
    (engines : s'.engines.length = s'.commons.tasks.length)
    (fibers : k'.fibers = Function.update k.fibers t f')
    (posts : ∀ u, u ≠ t → k'.post u = k.post u) (due : k'.due = []) (asks : k'.asked = k.asked)
    (others : ∀ d : TaskId × Fiber, d.1 ≠ t → (d ∈ driven' ↔ d ∈ driven))
    (distinct : (driven'.map (·.1)).Nodup)
    (mine : ∀ d ∈ driven', d.1 = t → k'.post t = .driven ∧ d.2 = f')
    (fiber : ∀ u, u ≠ t → s'.fiber u = s.fiber u)
    (left : (∀ d ∈ driven', d.1 ≠ t) → s'.fiber t = f') : k'.Shows s' driven' asked where
  sound := sound
  commons := commons
  engines := engines
  home u outside := by
    rw [fibers, Function.update_apply]
    split
    · rename_i same
      rw [same] at outside ⊢
      exact (left outside).symm
    · rename_i ne
      rw [fiber u ne]
      refine h.home u fun d member same => ?_
      exact outside d ((others d (same ▸ ne)).2 member) same
  posted d member := by
    by_cases same : d.1 = t
    · obtain ⟨posted, fiber⟩ := mine d member same
      rw [fibers, same, Function.update_self]
      exact ⟨posted, fiber.symm⟩
    · rw [fibers, Function.update_of_ne same, posts d.1 same]
      exact h.posted d ((others d same).1 member)
  distinct := distinct
  due := due
  asks := asks.trans h.asks

theorem head (h : k.Shows s ((t, f) :: driven) asked) : k.post t = .driven ∧ k.fibers t = f :=
  h.posted _ List.mem_cons_self

/-- A task that is driven has a record and an engine. -/
theorem exists_engine (h : k.Shows s ((t, f) :: driven) asked) :
    ∃ engine, s.engine? t = some engine := by
  obtain ⟨posted, -⟩ := h.head
  obtain ⟨r, here, -⟩ := h.sound.orderly.running (away_of_driven posted)
  rw [h.commons] at here
  exact TaskPool.engine?_of_task? h.engines here

/-! ### Others -/

/-- Whatever others do, if they make no task. -/
theorem foreign (h : k.Shows s driven asked) (change : s.commons.Foreign c)
    (tasks : c.tasks.length = s.commons.tasks.length) :
    ∃ k', Reaches k k' ∧ k'.Shows { s with commons := c } driven asked := by
  have step : Next k { k with commons := c } := .outside (h.commons ▸ change)
  exact ⟨_, .single step, (h.sound.next step).1, rfl, h.engines.trans tasks.symm, h.home, h.posted,
    h.distinct, h.due, h.asks⟩

theorem spawn (h : k.Shows s driven asked) (body : σ) :
    ∃ k', Reaches k k' ∧ k'.Shows (s.spawn body).2 driven asked := by
  have step : Next k { k with commons := s.commons.addTask.2 } := .outside (h.commons ▸ .spawn)
  refine ⟨_, .single step, (h.sound.next step).1, rfl, ?_, fun t outside => ?_, h.posted,
    h.distinct, h.due, h.asks⟩
  · change (s.engines ++ [_]).length = (s.commons.tasks ++ [_]).length
    rw [List.length_append, List.length_append, h.engines]
    rfl
  · rw [TaskPool.fiber_spawn h.engines]
    exact h.home t outside

/-- The clock moves on. -/
theorem advance (h : k.Shows s driven asked) (time : Nat) :
    ∃ k', Reaches k k' ∧ k'.Shows { s with commons := s.commons.advance time } driven asked :=
  h.foreign (.advance time) (Commons.keeps_advance s.commons time h.orderly).2.length

/-- Somebody asks for an exit message, which is put at once if the task has ended. -/
theorem informOnExit (h : k.Shows s driven asked) {r : TaskRecord} {e : ExitBoxId}
    (here : s.commons.task? t = some r) (box : e.index < s.commons.exitBoxes.length) :
    ∃ k', Reaches k k' ∧
      k'.Shows { s with commons := s.commons.informOnExit t e } driven (asked ++ [(t, e)]) := by
  have engines : s.engines.length = (s.commons.informOnExit t e).tasks.length :=
    h.engines.trans (Commons.keeps_informOnExit s.commons t e h.orderly).2.length.symm
  have here' : k.commons.task? t = some r := h.commons ▸ here
  have box' : e.index < k.commons.exitBoxes.length := h.commons ▸ box
  cases given : r.result with
  | none =>
    have step := Next.register here' given box'
    refine ⟨_, .single step, (h.sound.next step).1, ?_, engines, h.home, h.posted, h.distinct,
      h.due, congrArg (· ++ [(t, e)]) h.asks⟩
    rw [Commons.informOnExit_none here given, ← h.commons]
  | some result =>
    have step := Next.late here' given box'
    obtain ⟨k', run, delivered⟩ := exists_delivered
      { k with asked := k.asked ++ [(t, e)], due := k.due ++ notices t result [e] }
    have run := Relation.ReflTransGen.head step run
    refine ⟨k', run, (h.sound.reaches run).1, ?_, engines, ?_, ?_, h.distinct, delivered.due,
      delivered.asked.trans (congrArg (· ++ [(t, e)]) h.asks)⟩
    · rw [delivered.commons, Commons.informOnExit_some here given, ← h.commons]
      change (k.due ++ _).foldl _ k.commons = _
      rw [h.due]
      rfl
    · rw [delivered.fibers]
      exact h.home
    · rw [delivered.fibers, delivered.post]
      exact h.posted

theorem takeExit? (h : k.Shows s driven asked) {message : ExitMessage} {e : ExitBoxId}
    (take : s.commons.takeExit? e = some (message, c)) :
    ∃ k', Reaches k k' ∧ k'.Shows { s with commons := c } driven asked := by
  have step : Next k _ := .takeExit (h.commons ▸ take)
  exact ⟨_, .single step, (h.sound.next step).1, rfl,
    h.engines.trans (Commons.keeps_takeExit? take h.orderly).2.length.symm, h.home, h.posted,
    h.distinct, h.due, h.asks⟩

/-- Between what workers and others do, every request for the end of a task that is done has
been answered. -/
theorem answered (h : k.Shows s driven asked) (run : Reaches initial k)
    (done : s.commons.status? t = some .done) (e : ExitBoxId) :
    (k.puts.map Notice.request).count (t, e) = asked.count (t, e) := by
  obtain ⟨sound, accounts, -⟩ := accounted run
  rw [← h.commons] at done
  have balance := accounts.balance t e
  rw [accounts.settled t (sound.orderly.done_iff.1 done), h.due, h.asks] at balance
  simp only [List.count_nil, List.map_nil] at balance
  omega

/-! ### One drive -/

/-- A worker takes a task out of the queue. -/
theorem begin {queue : List TaskId} (h : k.Shows s driven asked)
    (next : s.commons.queue = t :: queue) : ∃ engine, (s.popped queue).engine? t = some engine ∧
    ∃ k', Reaches k k' ∧
      k'.Shows { s with commons := ((s.popped queue).opening engine).commons }
        ((t, ((s.popped queue).opening engine).fiber) :: driven) asked := by
  have queued : t ∈ k.commons.queue := by
    rw [h.commons, next]
    exact List.mem_cons_self
  have outside : ∀ d ∈ driven, d.1 ≠ t := by
    rintro d member rfl
    exact h.sound.orderly.apart d.1 (away_of_driven (h.posted d member).1) queued
  obtain ⟨r, here, -⟩ :=
    Commons.status?_eq_some_iff.1 ((h.sound.orderly.running_iff t).2 (Or.inl queued))
  rw [h.commons] at here
  obtain ⟨engine, found⟩ := TaskPool.engine?_of_task? (s := s.popped queue) h.engines here
  have fiber : k.fibers t = engine.fiber := (h.home t outside).trans (TaskPool.fiber_eq found)
  have step : Next k _ := .begin (h.commons ▸ next)
  obtain ⟨sound, -⟩ := h.sound.next step
  refine ⟨engine, found, _, .single step, h.move sound ?_ ?_ rfl
    (fun u ne => Function.update_of_ne ne _ _) h.due rfl (fun d ne => ?_) ?_
    (fun d member same => ?_) (fun u _ => TaskPool.fiber_congr rfl)
    fun none => absurd rfl (none _ List.mem_cons_self)⟩
  · rw [h.commons, fiber]
    rfl
  · exact h.engines.trans (Commons.keeps_stopListening { s.commons with queue } engine.fiber
      (h.orderly.pop next)).2.length.symm
  · rw [List.mem_cons]
    exact or_iff_right fun same => ne (congrArg Prod.fst same)
  · refine List.nodup_cons.2 ⟨fun member => ?_, h.distinct⟩
    obtain ⟨d, member, same⟩ := List.mem_map.1 member
    exact outside d member same
  · rcases List.mem_cons.1 member with rfl | member
    · refine ⟨Function.update_self .., ?_⟩
      rw [fiber]
      exact Commons.stopListening_fiber _ engine.fiber
    · exact absurd same (outside d member)

/-- A body asks for something, whatever the answer is. -/
theorem request (h : k.Shows s ((t, f) :: driven) asked) {op : Op}
    {r : Except Commons.Violation op.Reply} (answer : op.perform s.commons f = (r, c, f')) :
    ∃ k', Reaches k k' ∧ k'.Shows { s with commons := c } ((t, f') :: driven) asked := by
  obtain ⟨posted, fiber⟩ := h.head
  have answer' : op.perform k.commons (k.fibers t) = (r, c, f') := by
    rw [h.commons, fiber]
    exact answer
  have step : Next k _ := .request posted op
  rw [answer'] at step
  have distinct := h.distinct
  refine ⟨_, .single step, h.move (h.sound.next step).1 rfl ?_ rfl
    (fun u ne => Function.update_of_ne ne _ _) h.due rfl (fun d ne => ?_) distinct
    (fun d member same => ?_) (fun u _ => TaskPool.fiber_congr rfl)
    fun none => absurd rfl (none (t, f') List.mem_cons_self)⟩
  · have keeps := (Commons.keeps_perform op s.commons f h.orderly).2.length
    rw [answer] at keeps
    exact h.engines.trans keeps.symm
  · rw [List.mem_cons, List.mem_cons]
    refine or_congr_left (iff_of_false (fun same => ne ?_) fun same => ne ?_)
    · exact congrArg Prod.fst same
    · exact congrArg Prod.fst same
  · rcases List.mem_cons.1 member with rfl | member
    · exact ⟨Function.update_self .., rfl⟩
    · exact absurd (List.mem_map.2 ⟨d, member, same⟩) (List.nodup_cons.1 distinct).1

/-- A task is not driven any more. -/
theorem leave (h : k.Shows s ((t, f) :: driven) asked) (sound : k'.Sound)
    (commons : k'.commons = s'.commons)
    (tasks : s'.commons.tasks.length = s.commons.tasks.length) (body : σ)
    (engines : s'.engines = s.engines.set (t.number - 1) { body, fiber := f' })
    (fibers : k'.fibers = Function.update k.fibers t f')
    (posts : ∀ u, u ≠ t → k'.post u = k.post u) (due : k'.due = []) (asks : k'.asked = k.asked) :
    k'.Shows s' driven asked := by
  obtain ⟨engine, found⟩ := h.exists_engine
  obtain ⟨absent, distinct⟩ := List.nodup_cons.1 h.distinct
  refine h.move sound commons ?_ fibers posts due asks (fun d ne => ?_) distinct
    (fun d member same => ?_) (fun u ne => ?_) fun _ => ?_
  · rw [engines, List.length_set, tasks]
    exact h.engines
  · rw [List.mem_cons]
    exact (or_iff_right fun same => ne (congrArg Prod.fst same)).symm
  · exact absurd (List.mem_map.2 ⟨d, member, same⟩) absent
  · rw [TaskPool.fiber_set found engines, if_neg ne]
  · rw [TaskPool.fiber_set found engines, if_pos rfl]

/-- A drive ends with a result, and all who asked are informed. -/
theorem finish (h : k.Shows s ((t, f) :: driven) asked) (result : TaskResult)
    (reason : Option PauseReason) (body : σ)
    (tasks : ((s.commons.stopListening f).1.finish t result).tasks.length =
      s.commons.tasks.length) :
    ∃ k', Reaches k k' ∧ k'.Shows
      { commons := (s.commons.stopListening f).1.finish t result
        engines := s.engines.set (t.number - 1)
          { body, fiber := { f with reason, listening := [] } } } driven asked := by
  obtain ⟨posted, fiber⟩ := h.head
  have quiet : k.quiet t = (s.commons.stopListening f).1 := by
    unfold Shift.quiet
    rw [h.commons, fiber]
  obtain ⟨orderly, -⟩ := Commons.keeps_stopListening k.commons (k.fibers t) h.sound.orderly
  obtain ⟨r, here, -⟩ := orderly.running (away_of_driven posted)
  have step : Next k _ := .finish posted here result reason
  obtain ⟨k', run, delivered⟩ := exists_delivered _
  have run := Relation.ReflTransGen.head step run
  refine ⟨k', run, h.leave (h.sound.reaches run).1 ?_ tasks body rfl ?_ (fun u ne => ?_)
    delivered.due delivered.asked⟩
  · rw [delivered.commons, ← quiet]
    change (k.due ++ notices t result r.informed).foldl _ _ = (k.quiet t).finish t result
    have finished : (k.quiet t).finish t result = _ := Commons.finish_eq here result
    rw [finished, h.due, List.nil_append, notices, List.foldl_map]
    rfl
  · rw [delivered.fibers, ← fiber]
    rfl
  · rw [delivered.post]
    exact Function.update_of_ne ne _ _

/-- A drive ends with a pause, and perhaps the task goes on at once. -/
theorem pause (h : k.Shows s ((t, f) :: driven) asked) (lasts : (f.reason.any (·.isDone)) = false)
    (body : σ) (tasks : (TaskPool.conclude s.commons t .pending f.reason).tasks.length =
      s.commons.tasks.length) :
    ∃ k', Reaches k k' ∧ k'.Shows
      { commons := TaskPool.conclude s.commons t .pending f.reason
        engines := s.engines.set (t.number - 1) { body, fiber := { f with reason := none } } }
      driven asked := by
  obtain ⟨posted, fiber⟩ := h.head
  obtain ⟨r, here, -⟩ := h.sound.orderly.running (away_of_driven posted)
  have step : Next k _ := .pause posted here (f.reason.getD .yielded) none
  have concluded := Commons.conclude_pending (h.commons ▸ here) lasts
  by_cases holds : (s.commons.paused t r (f.reason.getD .yielded)).holds
      (f.reason.getD .yielded) = true
  · rw [if_pos holds] at concluded
    refine ⟨_, .single step, h.leave (h.sound.next step).1 ?_ tasks body rfl ?_
      (fun u ne => Function.update_of_ne ne _ _) h.due rfl⟩
    · rw [concluded, ← h.commons]
      rfl
    · rw [← fiber]
      rfl
  · rw [if_neg holds] at concluded
    have run := (Relation.ReflTransGen.single step).tail
      (.outside (.ask (.resume t) (f := .detached) rfl))
    refine ⟨_, run, h.leave (h.sound.reaches run).1 ?_ tasks body rfl ?_
      (fun u ne => Function.update_of_ne ne _ _) h.due rfl⟩
    · rw [concluded, ← h.commons]
      rfl
    · rw [← fiber]
      rfl

/-- A drive comes to its end, or will not. -/
theorem endDrive {scene : Scene σ}
    (h : k.Shows { s with commons := scene.commons } ((t, scene.fiber) :: driven) asked)
    (ending : Ending DriveEnd) :
    ∃ k', Reaches k k' ∧ k'.Shows (s.endDrive t ending scene).2 driven asked := by
  obtain ⟨posted, fiber⟩ := h.head
  have orderly : scene.commons.Orderly k.Away := h.orderly
  cases ending with
  | finished e =>
    have tasks := (orderly.endDrive (s := s) (e := e) (away_of_driven posted)
      (fun _ => Iff.rfl)).2.length
    obtain ⟨result, reason, same⟩ | ⟨lasts, same⟩ := s.endDrive_finished t e scene
    · rw [same] at tasks ⊢
      exact h.finish result reason scene.body tasks
    · rw [same] at tasks ⊢
      exact h.pause lasts scene.body tasks
  | violated message =>
    have step : Next k _ := .fall posted
    refine ⟨_, .single step, h.leave (h.sound.next step).1 ?_ ?_ scene.body ?_ rfl
      (fun u ne => Function.update_of_ne ne _ _) h.due rfl⟩
    · unfold quiet
      rw [h.commons, fiber]
      rfl
    · exact (Commons.keeps_stopListening scene.commons scene.fiber orderly).2.length
    · rw [fiber, ← Commons.stopListening_fiber scene.commons]
      rfl
  | diverged =>
    refine ⟨k, .refl, h.leave h.sound h.commons rfl scene.body rfl ?_ (fun _ _ => rfl) h.due rfl⟩
    rw [← fiber, Function.update_eq_self]

/-! ### One scheduler -/

/-- A drive gets to its end while time goes by. -/
theorem runTimed (d : Drive σ DriveEnd) (left : Nat) (scene : Scene σ)
    (h : k.Shows { s with commons := scene.commons } ((t, scene.fiber) :: driven) asked) :
    ∃ k', Reaches k k' ∧ k'.Shows { s with commons := (d.runTimed left scene).2.commons }
      ((t, (d.runTimed left scene).2.fiber) :: driven) asked := by
  induction d generalizing k left scene with
  | done e => exact ⟨k, .refl, h⟩
  | violate message => exact ⟨k, .refl, h⟩
  | diverge => exact ⟨k, .refl, h⟩
  | commit body next ih => exact ih () left { scene with body } h
  | ask op next ih =>
    have ticked : ∃ k', Reaches k k' ∧ k'.Shows
        { s with commons := if left = 0 then scene.commons.tick else scene.commons }
        ((t, scene.fiber) :: driven) asked := by
      split
      · exact h.advance (scene.commons.now + 1)
      · exact ⟨k, .refl, h⟩
    obtain ⟨k', run, shown⟩ := ticked
    rw [Drive.runTimed]
    rcases answer : op.perform (if left = 0 then scene.commons.tick else scene.commons)
      scene.fiber with ⟨v | r, c', f'⟩
    · exact after run (shown.request answer)
    · obtain ⟨k'', run', shown'⟩ := shown.request answer
      exact after (run.trans run') (ih r _ { scene with commons := c', fiber := f' } shown')

/-- The scheduler drives the next task of the queue. -/
theorem step? (h : k.Shows s driven asked) {ending : Ending Unit}
    (step : s.step? exec = some (t, ending, s')) :
    ∃ k', Reaches k k' ∧ k'.Shows s' driven asked := by
  obtain ⟨queue, next, same⟩ := TaskPool.step?_cases step
  obtain ⟨engine, found, k₁, begun, shown⟩ := h.begin next
  rw [TaskPool.drive_some found] at same
  obtain ⟨k₂, run, shown⟩ := runTimed (exec engine.body) Commons.pace
    ((s.popped queue).opening engine) shown
  obtain ⟨k₃, ended, shown⟩ := shown.endDrive
    ((exec engine.body).runTimed Commons.pace ((s.popped queue).opening engine)).1
  refine ⟨k₃, (begun.trans run).trans ended, ?_⟩
  rw [← show _ = s' from congrArg Prod.snd same]
  exact shown

/-! ### Any number of workers -/

/-- A drive goes on for a number of requests. -/
theorem runFor (d : Drive σ DriveEnd) (left : Nat) (scene : Scene σ)
    (h : k.Shows { s with commons := scene.commons } ((t, scene.fiber) :: driven) asked) :
    ∃ k', Reaches k k' ∧ k'.Shows { s with commons := (d.runFor left scene).2.commons }
      ((t, (d.runFor left scene).2.fiber) :: driven) asked := by
  induction d generalizing k left scene with
  | done e => exact ⟨k, .refl, h⟩
  | violate message => exact ⟨k, .refl, h⟩
  | diverge => exact ⟨k, .refl, h⟩
  | commit body next ih => exact ih () left { scene with body } h
  | ask op next ih =>
    cases left with
    | zero => exact ⟨k, .refl, h⟩
    | succ left =>
      rw [Drive.runFor]
      rcases answer : op.perform scene.commons scene.fiber with ⟨v | r, c', f'⟩
      · exact h.request answer
      · obtain ⟨k', run, shown⟩ := h.request answer
        exact after run (ih r left { scene with commons := c', fiber := f' } shown)

end Shows

end Shift

/-- The tasks whose drives are under way, with their fibers. -/
def Crew.driven {σ : Type} (crew : Crew σ) : List (TaskId × Fiber) :=
  crew.busy.map fun d => (d.task, d.fiber)

namespace Shift.Shows

variable {σ : Type} {exec : σ → Drive σ DriveEnd} {k : Shift} {crew crew' : Crew σ}
  {asked : List (TaskId × ExitBoxId)}

/-- An idle worker takes a task out of the queue. -/
theorem assign (h : k.Shows crew.pool crew.driven asked) :
    ∃ k', Reaches k k' ∧ k'.Shows (crew.assign exec).pool (crew.assign exec).driven asked := by
  unfold Crew.assign
  split
  · cases next : crew.pool.commons.queue with
    | nil => exact ⟨k, .refl, h⟩
    | cons t queue =>
      obtain ⟨engine, found, k', run, shown⟩ := h.begin next
      have begun : (crew.pool.popped queue).beginDrive? exec t =
          some (exec engine.body, (crew.pool.popped queue).opening engine) :=
        TaskPool.beginDrive?_eq_some_iff.2 ⟨engine, found, rfl, rfl⟩
      have begun : TaskPool.beginDrive? exec
          (crew.withCommons { crew.pool.commons with queue }).pool t = _ := begun
      simp only [begun]
      refine ⟨k', run, shown.perm ?_⟩
      unfold Crew.driven
      rw [List.map_append]
      exact (List.perm_append_singleton _ _).symm
  · exact ⟨k, .refl, h⟩

/-- Requests take time. -/
theorem spend (h : k.Shows crew.pool crew.driven asked) (requests : Nat) :
    ∃ k', Reaches k k' ∧
      k'.Shows (crew.spend requests).pool (crew.spend requests).driven asked := by
  unfold Crew.spend
  split
  · exact ⟨k, .refl, h⟩
  · exact h.advance (crew.pool.commons.now + 1)

/-- The workers take a turn. -/
theorem turn? (h : k.Shows crew.pool crew.driven asked) (turn : crew.turn? exec = some crew') :
    ∃ k', Reaches k k' ∧ k'.Shows crew'.pool crew'.driven asked := by
  obtain ⟨k₁, assigned, shown⟩ : ∃ k₁, Reaches k k₁ ∧
      k₁.Shows (crew.assign exec).pool (crew.assign exec).driven asked := h.assign
  unfold Crew.turn? at turn
  generalize crew.assign exec = c at turn shown
  cases line : c.busy with
  | nil =>
    simp only [line] at turn
    cases turn
  | cons d busy =>
    simp only [line] at turn
    unfold Crew.driven at shown
    rw [line, List.map_cons] at shown
    obtain ⟨k₂, run, went⟩ := runFor d.rest (Commons.pace - c.work)
      { commons := c.pool.commons, fiber := d.fiber, body := d.body } shown
    rcases stretch : d.rest.runFor (Commons.pace - c.work)
      { commons := c.pool.commons, fiber := d.fiber, body := d.body } with
      ⟨⟨ending, left⟩ | rest, scene⟩
    · rw [stretch] at turn went
      obtain ⟨k₃, ended, shown⟩ := went.endDrive ending
      rw [← Option.some.inj turn]
      exact after ((assigned.trans run).trans ended) (spend shown _)
    · rw [stretch] at turn went
      rw [← Option.some.inj turn]
      refine after (assigned.trans run) (spend (went.perm ?_) _)
      unfold Crew.driven
      rw [List.map_append]
      exact (List.perm_append_singleton _ _).symm

end Shift.Shows

end Resumable
