import Resumable.Proofs.Task.Lifecycle
import Resumable.Proofs.Task.Requests

/-!
# What the tasks of a course ask for

`Course.Chronicle` is a course with the requests that were answered on the way, each with the
task whose drive it is a part of.  What one task has asked for in a course is what its drives
have asked for, one after the other (`Chronicle.standing`): each drive goes on with the body and
the frames that the one before it has left, whatever happens in between, and after a drive that
ends the task or breaks the rules there is no other one.
-/

namespace Resumable

namespace Drive

variable {σ τ α : Type} {f f' : Fiber} {log : List Ask} {e : Ending α}

/-- Every drive has a run. -/
theorem exists_logs (d : Drive σ α) (f : Fiber) (s : σ) :
    ∃ log e f' s', Logs d f s log e f' s' := by
  obtain ⟨log, logs⟩ := (runs_run d ⟨.empty, f, s⟩).logs
  exact ⟨log, _, _, _, logs⟩

/-- The runs of a drive with a larger state around the committed ones. -/
theorem Logs.of_mapState {g : σ → τ} {d : Drive σ α} {s : σ} {b : τ}
    (h : Logs (d.mapState g) f (g s) log e f' b) : ∃ s', b = g s' ∧ Logs d f s log e f' s' := by
  induction d generalizing f s log with
  | done a =>
    cases h
    exact ⟨s, rfl, .done⟩
  | violate message =>
    cases h
    exact ⟨s, rfl, .violate⟩
  | diverge =>
    cases h
    exact ⟨s, rfl, .diverge⟩
  | commit body next ih =>
    cases h with
    | commit rest =>
      obtain ⟨s', same, logs⟩ := ih () rest
      exact ⟨s', same, .commit logs⟩
  | ask op next ih =>
    cases h with
    | answered answer rest =>
      obtain ⟨s', same, logs⟩ := ih _ rest
      exact ⟨s', same, .answered answer logs⟩
    | refused answer => exact ⟨s, rfl, .refused answer⟩

/-- An answer leads on. -/
theorem ne_of_ask {d : Drive σ α} {op : Op} {next : op.Reply → Drive σ α} (same : d = .ask op next)
    (r : op.Reply) : next r ≠ d := by
  induction d generalizing op with
  | ask op' next' ih =>
    cases same
    intro again
    exact ih r again r rfl
  | _ => cases same

end Drive

namespace Course

variable {σ : Type} {exec : σ → Drive σ DriveEnd} {k k' k'' : Course σ} {t : TaskId}

/-! ## Chronicles -/

/-- A step without an answer: a drive that has asked for something goes on waiting for it, or
it is refused. -/
def Silent (k k' : Course σ) : Prop :=
  ∀ o op next, k.ongoing = some o → o.rest = .ask op next →
    k'.ongoing = some o ∨ ∃ v, (op.perform k.commons o.fiber).1 = .error v

/-- Any number of things that happen, with the requests that are answered meanwhile. -/
inductive Chronicle (exec : σ → Drive σ DriveEnd) (k : Course σ) :
    List (TaskId × Ask) → Course σ → Prop
  | nil : Chronicle exec k [] k
  | answer {k' : Course σ} {log : List (TaskId × Ask)} {o : Ongoing σ} {op : Op}
      {next : op.Reply → Drive σ DriveEnd} {r : op.Reply} {c : Commons} {f : Fiber}
      (before : Chronicle exec k log k') (busy : k'.ongoing = some o) (rest : o.rest = .ask op next)
      (answer : op.perform k'.commons o.fiber = (.ok r, c, f)) :
      Chronicle exec k (log ++ [(o.task, ⟨op, r, k'.commons, c, o.fiber, f, answer⟩)])
        { k'.withCommons c with ongoing := some { o with rest := next r, fiber := f } }
  | silent {k' k'' : Course σ} {log : List (TaskId × Ask)} (before : Chronicle exec k log k')
      (step : Next exec k' k'') (silent : k'.Silent k'') : Chronicle exec k log k''

theorem silent_of_ongoing (same : k'.ongoing = k.ongoing) : k.Silent k' :=
  fun _ _ _ busy _ => Or.inl (same.trans busy)

theorem silent_of_rest {o : Ongoing σ} (busy : k.ongoing = some o)
    (rest : ∀ op next, o.rest ≠ .ask op next) : k.Silent k' := by
  intro o' op next busy' asks
  obtain rfl := Option.some.inj (busy.symm.trans busy')
  exact absurd asks (rest op next)

/-- Every course has a chronicle. -/
theorem Reaches.exists_chronicle (run : Reaches exec k k') : ∃ log, Chronicle exec k log k' := by
  induction run with
  | refl => exact ⟨[], .nil⟩
  | @tail k' k'' run step ih =>
    obtain ⟨log, before⟩ := ih
    cases step with
    | answer busy rest answer => exact ⟨_, .answer before busy rest answer⟩
    | outside change => exact ⟨_, .silent before (.outside change) (silent_of_ongoing rfl)⟩
    | spawn body => exact ⟨_, .silent before (.spawn body) (silent_of_ongoing rfl)⟩
    | drive idle next begun =>
      refine ⟨_, .silent before (.drive idle next begun) fun o _ _ busy _ => ?_⟩
      rw [idle] at busy
      cases busy
    | commit busy rest =>
      exact ⟨_, .silent before (.commit busy rest) (silent_of_rest busy (by simp [rest]))⟩
    | @refuse o op next v c f busy rest answer =>
      refine ⟨_, .silent before (.refuse busy rest answer) fun o' op' next' busy' asks => ?_⟩
      obtain rfl := Option.some.inj (busy.symm.trans busy')
      rw [rest] at asks
      cases asks
      exact Or.inr ⟨v, congrArg Prod.fst answer⟩
    | finish busy rest =>
      exact ⟨_, .silent before (.finish busy rest) (silent_of_rest busy (by simp [rest]))⟩
    | fall busy rest =>
      exact ⟨_, .silent before (.fall busy rest) (silent_of_rest busy (by simp [rest]))⟩

theorem Chronicle.reaches {log : List (TaskId × Ask)} (h : Chronicle exec k log k') :
    Reaches exec k k' := by
  induction h with
  | nil => exact .refl
  | answer before busy rest answer ih => exact ih.tail (.answer busy rest answer)
  | silent before step silent ih => exact ih.tail step

/-- What a task has asked for. -/
def asksOf (t : TaskId) (log : List (TaskId × Ask)) : List Ask :=
  (log.filter (·.1 = t)).map (·.2)

theorem asksOf_append (t : TaskId) (log more : List (TaskId × Ask)) :
    asksOf t (log ++ more) = asksOf t log ++ asksOf t more := by
  unfold asksOf
  rw [List.filter_append, List.map_append]

/-! ## The drives of one task -/

/-- The drives of a task so far, each of which has left it waiting, with what they have asked
for.  A drive begins with the body and the frames that the one before it has left. -/
inductive Career (exec : σ → Drive σ DriveEnd) (body₀ : σ) : List Ask → σ → Fiber → Prop
  | nil {f : Fiber} (clean : f.frames = []) : Career exec body₀ [] body₀ f
  | snoc {asks log : List Ask} {body body' : σ} {f f₀ f' : Fiber}
      (before : Career exec body₀ asks body f) (kept : f₀.frames = f.frames)
      (drive : Drive.Logs (exec body) f₀ body log (.finished .pending) f' body')
      (waits : f'.reason.any PauseReason.isDone = false) :
    Career exec body₀ (asks ++ log) body' f'

/-- Where a task is in its career, with what it has asked for. -/
inductive Standing (exec : σ → Drive σ DriveEnd) (t : TaskId) (body₀ : σ) :
    List Ask → Course σ → Prop
  | waits {k : Course σ} {asks : List Ask} {engine : Engine σ} {f : Fiber}
      (apart : ∀ o, k.ongoing = some o → o.task ≠ t) (here : k.pool.engine? t = some engine)
      (career : Career exec body₀ asks engine.body f) (kept : engine.fiber.frames = f.frames) :
    Standing exec t body₀ asks k
  /-- The task is driven, and what is left of the drive completes it. -/
  | driven {k : Course σ} {asks log : List Ask} {o : Ongoing σ} {body : σ} {f f₀ : Fiber}
      (busy : k.ongoing = some o) (own : o.task = t) (career : Career exec body₀ asks body f)
      (kept : f₀.frames = f.frames)
      (completes : ∀ more e f' body', Drive.Logs o.rest o.fiber o.body more e f' body' →
        Drive.Logs (exec body) f₀ body (log ++ more) e f' body') :
    Standing exec t body₀ (asks ++ log) k
  /-- There was a last drive. -/
  | past {k : Course σ} {asks log : List Ask} {body body' : σ} {f f₀ f' : Fiber}
      {e : Ending DriveEnd} (apart : ∀ o, k.ongoing = some o → o.task ≠ t)
      (ended : k.commons.status? t = some .done ∨ t ∈ k.fallen)
      (career : Career exec body₀ asks body f) (kept : f₀.frames = f.frames)
      (drive : Drive.Logs (exec body) f₀ body log e f' body') :
    Standing exec t body₀ (asks ++ log) k

variable {body₀ : σ} {asks : List Ask} {o : Ongoing σ}

/-- The task whose drive is under way has an engine. -/
theorem Sound.exists_engine (sound : k.Sound) (busy : k.ongoing = some o) :
    ∃ engine, k.pool.engine? o.task = some engine := by
  obtain ⟨r, here, -⟩ := sound.orderly.running (Or.inr ⟨o, busy, rfl⟩)
  exact TaskPool.engine?_of_task? sound.engines here

/-- What is in the queue was neither done nor brought down. -/
theorem Sound.not_ended (sound : k.Sound) {queue : List TaskId}
    (next : k.commons.queue = t :: queue) :
    ¬ (k.commons.status? t = some .done ∨ t ∈ k.fallen) := by
  have queued : t ∈ k.commons.queue := by
    rw [next]
    exact List.mem_cons_self
  rintro (done | fallen)
  · have running := (sound.orderly.running_iff t).2 (Or.inl queued)
    cases running.symm.trans done
  · exact sound.orderly.apart t (Or.inl fallen) queued

/-- A task that is not driven stays so, unless its drive begins. -/
theorem Next.apart_or_begins (step : Next exec k k')
    (apart : ∀ o, k.ongoing = some o → o.task ≠ t) :
    (∀ o, k'.ongoing = some o → o.task ≠ t) ∨
      ∃ queue engine scene, k.commons.queue = t :: queue ∧ k.pool.engine? t = some engine ∧
        scene = (k.pool.popped queue).opening engine ∧
        k'.ongoing = some ⟨t, exec engine.body, scene.fiber, scene.body⟩ := by
  have goesOn : ∀ {o o' : Ongoing σ}, k.ongoing = some o → o'.task = o.task →
      ∀ d, some o' = some d → d.task ≠ t := by
    rintro o o' busy same d ⟨⟩
    rw [same]
    exact apart o busy
  cases step with
  | outside change => exact Or.inl apart
  | spawn body => exact Or.inl apart
  | @drive u queue rest scene idle next begun =>
    obtain ⟨engine, found, rfl, rfl⟩ := TaskPool.beginDrive?_eq_some_iff.1 begun
    by_cases same : u = t
    · subst same
      exact Or.inr ⟨queue, engine, _, next, found, rfl, rfl⟩
    · refine Or.inl ?_
      rintro o ⟨⟩
      exact same
  | commit busy rest => exact Or.inl (goesOn busy rfl)
  | answer busy rest answer => exact Or.inl (goesOn busy rfl)
  | refuse busy rest answer => exact Or.inl (goesOn busy rfl)
  | finish busy rest => exact Or.inl (by rintro o ⟨⟩)
  | fall busy rest => exact Or.inl (by rintro o ⟨⟩)

/-- The engine of a task that is not driven stays as it is. -/
theorem Next.engine?_eq (step : Next exec k k') (sound : k.Sound)
    (apart : ∀ o, k.ongoing = some o → o.task ≠ t) {engine : Engine σ}
    (here : k.pool.engine? t = some engine) : k'.pool.engine? t = some engine := by
  cases step with
  | spawn body =>
    have new : t ≠ (k.pool.spawn body).1 := by
      rintro rfl
      rw [TaskPool.engine?_spawn_new sound.engines] at here
      cases here
    refine (TaskPool.engine?_spawn sound.engines body t).trans ?_
    rw [if_neg new, here]
  | @finish o e busy rest =>
    obtain ⟨other, found⟩ := sound.exists_engine busy
    obtain ⟨fiber, engines, -⟩ := k.pool.endDrive_engine o.task e (k.scene o)
    rw [TaskPool.engine?_set found engines, if_neg (apart o busy).symm, here]
  | @fall o message busy rest =>
    obtain ⟨other, found⟩ := sound.exists_engine busy
    rw [TaskPool.engine?_set found rfl, if_neg (apart o busy).symm, here]
  | _ => exact here

/-- A task that waits. -/
theorem Standing.waits_next {engine : Engine σ} {f : Fiber} (sound : k.Sound)
    (step : Next exec k k') (apart : ∀ o, k.ongoing = some o → o.task ≠ t)
    (here : k.pool.engine? t = some engine) (career : Career exec body₀ asks engine.body f)
    (kept : engine.fiber.frames = f.frames) : Standing exec t body₀ asks k' := by
  rcases step.apart_or_begins apart with apart' | ⟨queue, engine', scene, -, found, rfl, busy⟩
  · exact .waits apart' (step.engine?_eq sound apart here) career kept
  · obtain rfl := Option.some.inj (here.symm.trans found)
    have kept' : ((k.pool.popped queue).opening engine).fiber.frames = f.frames :=
      (congrArg Fiber.frames (Commons.stopListening_fiber _ engine.fiber)).trans kept
    have driven : Standing exec t body₀ (asks ++ []) k' :=
      .driven busy rfl career kept' fun more e f' body' logs => logs
    rw [List.append_nil] at driven
    exact driven

/-- A task whose last drive is over. -/
theorem Next.ended (step : Next exec k k') (sound : k.Sound)
    (ended : k.commons.status? t = some .done ∨ t ∈ k.fallen) :
    k'.commons.status? t = some .done ∨ t ∈ k'.fallen := by
  rcases ended with done | fallen
  · exact Or.inl (status?_done (sound.next step).2.later done)
  · right
    cases step with
    | fall busy rest => exact List.mem_cons_of_mem _ fallen
    | _ => exact fallen

/-- The drive of the task comes to its end: there is no other one, or the task waits. -/
theorem Standing.finish {log : List Ask} {body : σ} {f f₀ : Fiber} {e : DriveEnd} (sound : k.Sound)
    (busy : k.ongoing = some o) (own : o.task = t) (career : Career exec body₀ asks body f)
    (kept : f₀.frames = f.frames)
    (drive : Drive.Logs (exec body) f₀ body log (.finished e) o.fiber o.body) :
    Standing exec t body₀ (asks ++ log) { k with
      pool := (k.pool.endDrive o.task (.finished e) (k.scene o)).2, ongoing := none } := by
  have gone : k.Away o.task := Or.inr ⟨o, busy, rfl⟩
  obtain ⟨result, same⟩ | ⟨rfl, lasts, same⟩ := Commons.endDrive_cases k.pool o.task e (k.scene o)
  · -- a task that is done is not queued any more
    obtain ⟨quiet, -⟩ := Commons.keeps_stopListening k.commons o.fiber sound.orderly
    have done := quiet.status?_finish gone (fun _ => Iff.rfl) result
    refine .past (by rintro o ⟨⟩) (Or.inl ?_) career kept drive
    subst own
    exact (congrArg (Commons.status? · o.task) same).trans done
  · obtain ⟨other, found⟩ := sound.exists_engine busy
    obtain ⟨fiber, engines, -, frames, -⟩ := k.pool.endDrive_engine o.task .pending (k.scene o)
    have here := TaskPool.engine?_set (u := t) found engines
    rw [if_pos own.symm] at here
    exact .waits (by rintro o ⟨⟩) here (career.snoc kept drive lasts) frames

/-- What happens without an answer. -/
theorem Standing.silent (h : Standing exec t body₀ asks k) (sound : k.Sound)
    (step : Next exec k k') (silent : k.Silent k') : Standing exec t body₀ asks k' := by
  cases h with
  | waits apart here career kept => exact Standing.waits_next sound step apart here career kept
  | past apart ended career kept drive =>
    rcases step.apart_or_begins apart with apart' | ⟨queue, -, -, next, -⟩
    · exact .past apart' (step.ended sound ended) career kept drive
    · exact absurd ended (sound.not_ended next)
  | @driven _ asks log o body f f₀ busy own career kept completes =>
    cases step with
    | outside change => exact .driven busy own career kept completes
    | spawn body => exact .driven busy own career kept completes
    | drive idle next begun =>
      rw [idle] at busy
      cases busy
    | commit busy' rest =>
      obtain rfl := Option.some.inj (busy.symm.trans busy')
      refine .driven rfl own career kept fun more e f' body' logs => completes _ _ _ _ ?_
      rw [rest]
      exact .commit logs
    | answer busy' rest answer =>
      obtain rfl := Option.some.inj (busy.symm.trans busy')
      rcases silent o _ _ busy rest with same | ⟨v, refused⟩
      · -- no drive is what is left of it after an answer
        have same := congrArg Ongoing.rest (Option.some.inj same)
        exact absurd same (Drive.ne_of_ask rest _)
      · rw [answer] at refused
        cases refused
    | refuse busy' rest answer =>
      obtain rfl := Option.some.inj (busy.symm.trans busy')
      refine .driven rfl own career kept fun more e f' body' logs => completes _ _ _ _ ?_
      cases logs
      rw [rest]
      exact .refused answer
    | @finish _ e busy' rest =>
      obtain rfl := Option.some.inj (busy.symm.trans busy')
      have drive := completes [] (.finished e) o.fiber o.body (by rw [rest]; exact .done)
      rw [List.append_nil] at drive
      exact Standing.finish sound busy own career kept drive
    | @fall _ message busy' rest =>
      obtain rfl := Option.some.inj (busy.symm.trans busy')
      have drive := completes [] (.violated message) o.fiber o.body (by rw [rest]; exact .violate)
      rw [List.append_nil] at drive
      refine .past (by rintro o ⟨⟩) (Or.inr ?_) career kept drive
      rw [← own]
      exact List.mem_cons_self

/-- A request is answered. -/
theorem Standing.answer {op : Op} {next : op.Reply → Drive σ DriveEnd} {r : op.Reply}
    {c : Commons} {f : Fiber} (h : Standing exec t body₀ asks k) (sound : k.Sound)
    (busy : k.ongoing = some o) (rest : o.rest = .ask op next)
    (answer : op.perform k.commons o.fiber = (.ok r, c, f)) :
    Standing exec t body₀ (asks ++ asksOf t [(o.task, ⟨op, r, k.commons, c, o.fiber, f, answer⟩)])
      { k.withCommons c with ongoing := some { o with rest := next r, fiber := f } } := by
  have step : Next exec k _ := .answer busy rest answer
  have other : o.task ≠ t → ∀ a, asksOf t [(o.task, a)] = [] := by
    intro ne a
    simp [asksOf, ne]
  cases h with
  | waits apart here career kept =>
    rw [other (apart o busy), List.append_nil]
    exact Standing.waits_next sound step apart here career kept
  | past apart ended career kept drive =>
    rw [other (apart o busy), List.append_nil]
    refine .past ?_ (step.ended sound ended) career kept drive
    rintro _ ⟨⟩
    exact apart o busy
  | @driven _ asks log o' body f f₀ busy' own career kept completes =>
    obtain rfl := Option.some.inj (busy.symm.trans busy')
    have mine : ∀ a, asksOf t [(o.task, a)] = [a] := by
      intro a
      simp [asksOf, own]
    rw [mine, List.append_assoc]
    refine .driven rfl own career kept fun more e f' body' logs => ?_
    rw [List.append_assoc]
    refine completes _ _ _ _ ?_
    rw [rest]
    exact .answered answer logs

/-- What a task has asked for in a course is what its drives have asked for. -/
theorem Chronicle.standing {log : List (TaskId × Ask)} (run : Chronicle exec k log k')
    (sound : k.Sound) (h : Standing exec t body₀ asks k) :
    Standing exec t body₀ (asks ++ asksOf t log) k' := by
  induction run with
  | nil =>
    rw [show asksOf t [] = [] from rfl, List.append_nil]
    exact h
  | answer before busy rest answer ih =>
    rw [asksOf_append, ← List.append_assoc]
    exact ih.answer (sound.reaches before.reaches).1 busy rest answer
  | silent before step silent ih => exact ih.silent (sound.reaches before.reaches).1 step silent

/-- A task is made. -/
def spawned (k : Course σ) (body : σ) : Course σ := { k with pool := (k.pool.spawn body).2 }

/-- A new task has asked for nothing yet. -/
theorem Sound.standing_spawned (sound : k.Sound) (body : σ) :
    Standing exec k.commons.addTask.1 body [] (k.spawned body) := by
  have here := TaskPool.engine?_spawn sound.engines body (k.pool.spawn body).1
  rw [if_pos rfl] at here
  refine .waits (fun o busy same => ?_) here (.nil rfl) rfl
  obtain ⟨engine, found⟩ := sound.exists_engine busy
  have none : k.pool.engine? k.commons.addTask.1 = none :=
    TaskPool.engine?_spawn_new sound.engines body
  rw [same, none] at found
  cases found

end Course

end Resumable
