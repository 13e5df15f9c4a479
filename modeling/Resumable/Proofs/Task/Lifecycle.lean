import Mathlib.Logic.Relation
import Resumable.Proofs.Task.Orderly
import Resumable.Task.Crew

/-!
# The life of a task

`Course` is a pool with a scheduler that drives one task at a time, together with what a
report would tell of it: the drives that have begun, and the tasks whose drives broke the
rules.  `Course.Next` is everything that can happen to it, one request of a body at a time, so
that between two requests of a drive anybody can start, resume or inform tasks, use mailboxes,
let time go by or shut the executor down.

`Course.lawful` says what holds after any such course, whatever the bodies are.
-/

namespace Resumable

/-! ## Courses -/

/-- What can be done at any time, by anybody. -/
inductive Commons.Outside (c : Commons) : Commons → Prop
  | start (t : TaskId) : Outside c (c.start t).2
  /-- A request on any fiber: starts from a task, resumptions, messages, a shutdown. -/
  | ask (op : Op) (f : Fiber) : Outside c (op.perform c f).2.1
  | tryPut (box : MailboxId) (v : Value) : Outside c (c.tryPut box v).2
  | informOnExit (t : TaskId) (e : ExitBoxId) : Outside c (c.informOnExit t e)
  | takeExit {c' : Commons} {e : ExitBoxId} {message : ExitMessage}
    (take : c.takeExit? e = some (message, c')) : Outside c c'
  | advance (time : Nat) : Outside c (c.advance time)
  /-- What has nothing to do with tasks: mailboxes are made, listeners come and go, and the
  executor refuses tasks for a while. -/
  | elsewhere {c' : Commons} (tasks : c'.tasks = c.tasks) (queue : c'.queue = c.queue) :
    Outside c c'

/-- A pool with a scheduler that drives one task at a time. -/
structure Course (σ : Type) where
  pool : TaskPool σ
  /-- The drive that is under way. -/
  ongoing : Option (Ongoing σ)
  /-- The tasks whose drives have begun, once for each, the last one first. -/
  driven : List TaskId
  /-- The tasks whose drives broke the rules. -/
  fallen : List TaskId

namespace Course

variable {σ : Type} {exec : σ → Drive σ DriveEnd} {k k' k'' : Course σ} {t : TaskId}

def initial : Course σ := { pool := .empty, ongoing := none, driven := [], fallen := [] }

def commons (k : Course σ) : Commons := k.pool.commons

def withCommons (k : Course σ) (commons : Commons) : Course σ :=
  { k with pool := { k.pool with commons } }

/-- What the drive works on. -/
def scene (k : Course σ) (o : Ongoing σ) : Scene σ :=
  { commons := k.commons, fiber := o.fiber, body := o.body }

/-- One thing that happens. -/
inductive Next (exec : σ → Drive σ DriveEnd) (k : Course σ) : Course σ → Prop
  | outside {c : Commons} (change : k.commons.Outside c) : Next exec k (k.withCommons c)
  | spawn (body : σ) : Next exec k { k with pool := (k.pool.spawn body).2 }
  /-- The scheduler takes the next task out of the queue. -/
  | drive {t : TaskId} {queue : List TaskId} {rest : Drive σ DriveEnd} {scene : Scene σ}
    (idle : k.ongoing = none) (next : k.commons.queue = t :: queue)
    (begun : (k.pool.popped queue).beginDrive? exec t = some (rest, scene)) :
    Next exec k { k.withCommons scene.commons with
      ongoing := some { task := t, rest, fiber := scene.fiber, body := scene.body }
      driven := t :: k.driven }
  | commit {o : Ongoing σ} {body : σ} {next : Unit → Drive σ DriveEnd}
    (busy : k.ongoing = some o) (rest : o.rest = .commit body next) :
    Next exec k { k with ongoing := some { o with rest := next (), body } }
  | answer {o : Ongoing σ} {op : Op} {next : op.Reply → Drive σ DriveEnd} {r : op.Reply}
    {c : Commons} {f : Fiber} (busy : k.ongoing = some o) (rest : o.rest = .ask op next)
    (answer : op.perform k.commons o.fiber = (.ok r, c, f)) :
    Next exec k { k.withCommons c with ongoing := some { o with rest := next r, fiber := f } }
  | refuse {o : Ongoing σ} {op : Op} {next : op.Reply → Drive σ DriveEnd} {v : Commons.Violation}
    {c : Commons} {f : Fiber} (busy : k.ongoing = some o) (rest : o.rest = .ask op next)
    (answer : op.perform k.commons o.fiber = (.error v, c, f)) :
    Next exec k { k.withCommons c with
      ongoing := some { o with rest := .violate v.message, fiber := f } }
  /-- The drive comes to its end. -/
  | finish {o : Ongoing σ} {e : DriveEnd} (busy : k.ongoing = some o) (rest : o.rest = .done e) :
    Next exec k { k with
      pool := (k.pool.endDrive o.task (.finished e) (k.scene o)).2, ongoing := none }
  /-- The drive ends because the body broke the rules. -/
  | fall {o : Ongoing σ} {message : String} (busy : k.ongoing = some o)
    (rest : o.rest = .violate message) :
    Next exec k { k with
      pool := (k.pool.endDrive o.task (.violated message) (k.scene o)).2, ongoing := none
      fallen := o.task :: k.fallen }

/-- Any number of things that happen, one after the other. -/
def Reaches (exec : σ → Drive σ DriveEnd) : Course σ → Course σ → Prop :=
  Relation.ReflTransGen (Next exec)

/-! ## What every step keeps -/

/-- The tasks that a worker has, or had when it came down. -/
def Away (k : Course σ) (t : TaskId) : Prop :=
  t ∈ k.fallen ∨ ∃ o, k.ongoing = some o ∧ o.task = t

/-- Tasks are in order, and what is told of them is true. -/
structure Sound (k : Course σ) : Prop where
  orderly : k.commons.Orderly k.Away
  engines : k.pool.engines.length = k.commons.tasks.length
  standing : ∀ o, k.ongoing = some o → o.task ∉ k.fallen
  started : ∀ t ∈ k.driven, ∃ r, k.commons.task? t = some r ∧ r.started = true

/-- A later state: no task falls back, and a task that is done is not driven. -/
structure Onward (k k' : Course σ) : Prop where
  later : k.commons.Later k'.commons
  driven : ∀ t, k.commons.status? t = some .done → k'.driven.count t = k.driven.count t

end Course

theorem Commons.Outside.keeps {c c' : Commons} {away : TaskId → Prop} (h : c.Outside c') :
    Keeps away c c' := by
  cases h with
  | start t => exact keeps_start c t
  | ask op f => exact keeps_perform op c f
  | tryPut box v => exact keeps_tryPut c box v
  | informOnExit t e => exact keeps_informOnExit c t e
  | takeExit take => exact keeps_takeExit? take
  | advance time => exact keeps_advance c time
  | elsewhere tasks queue => exact keeps_same c tasks queue

namespace Course

variable {σ : Type} {exec : σ → Drive σ DriveEnd} {k k' k'' : Course σ} {t : TaskId}

theorem Onward.refl (k : Course σ) : k.Onward k := ⟨.refl _, fun _ _ => rfl⟩

theorem status?_done (later : k.commons.Later k'.commons)
    (done : k.commons.status? t = some .done) : k'.commons.status? t = some .done := by
  obtain ⟨r, here, ended⟩ := Commons.status?_eq_some_iff.1 done
  obtain ⟨r', there, becomes⟩ := later t r here
  exact Commons.status?_eq_some_iff.2 ⟨r', there,
    TaskRecord.status_eq_done_iff.2 (becomes.done (TaskRecord.status_eq_done_iff.1 ended))⟩

theorem Onward.trans (h : k.Onward k') (h' : k'.Onward k'') : k.Onward k'' where
  later := h.later.trans h'.later
  driven t done := (h'.driven t (status?_done h.later done)).trans (h.driven t done)

theorem sound_initial : (initial : Course σ).Sound where
  orderly := by
    have away : (initial : Course σ).Away = fun _ => False := by
      funext t
      simp [Away, initial]
    rw [away]
    exact Commons.orderly_empty
  engines := rfl
  standing o busy := by cases busy
  started t member := by cases member

theorem started_later {c c' : Commons} {driven : List TaskId}
    (started : ∀ t ∈ driven, ∃ r, c.task? t = some r ∧ r.started = true) (later : c.Later c') :
    ∀ t ∈ driven, ∃ r, c'.task? t = some r ∧ r.started = true := by
  intro t member
  obtain ⟨r, here, begun⟩ := started t member
  obtain ⟨r', there, becomes⟩ := later t r here
  exact ⟨r', there, becomes.started begun⟩

/-- A step that begins and ends no drive. -/
theorem Sound.keep (h : k.Sound) (keeps : Commons.Keeps k.Away k.commons k'.commons)
    (away : k'.Away = k.Away) (engines : k'.pool.engines.length = k.pool.engines.length)
    (standing : ∀ o, k'.ongoing = some o → o.task ∉ k'.fallen) (driven : k'.driven = k.driven) :
    k'.Sound ∧ k.Onward k' := by
  obtain ⟨orderly, later, length⟩ := keeps h.orderly
  refine ⟨⟨by rw [away]; exact orderly, ?_, standing, ?_⟩, later, fun _ _ => by rw [driven]⟩
  · rw [engines, length, h.engines]
  · rw [driven]
    exact started_later h.started later

/-- A drive that is under way goes on. -/
theorem Sound.goOn (h : k.Sound) {o o' : Ongoing σ} {c : Commons} (busy : k.ongoing = some o)
    (same : o'.task = o.task) (keeps : Commons.Keeps k.Away k.commons c) :
    ({ k.withCommons c with ongoing := some o' } : Course σ).Sound ∧
      k.Onward { k.withCommons c with ongoing := some o' } := by
  refine h.keep keeps ?_ rfl ?_ rfl
  · funext t
    simp [Away, busy, same, withCommons]
  · rintro _ ⟨⟩
    rw [same]
    exact h.standing o busy

/-- The first task of the queue was running, and it is driven now. -/
theorem Sound.begin (h : k.Sound) {queue : List TaskId} (idle : k.ongoing = none)
    (next : k.commons.queue = t :: queue) (engine : Engine σ) (rest : Drive σ DriveEnd) :
    let scene := (k.pool.popped queue).opening engine
    let k' := { k.withCommons scene.commons with
      ongoing := some { task := t, rest, fiber := scene.fiber, body := scene.body }
      driven := t :: k.driven }
    k'.Sound ∧ k.Onward k' := by
  have queued : t ∈ k.commons.queue := by
    rw [next]
    exact List.mem_cons_self
  have running := (h.orderly.running_iff t).2 (Or.inl queued)
  obtain ⟨orderly, later, length⟩ :=
    Commons.keeps_stopListening { k.commons with queue } engine.fiber (h.orderly.pop next)
  refine ⟨⟨?_, ?_, ?_, ?_⟩, later, ?_⟩
  · exact orderly.congr fun u => by simp [Away, withCommons, idle, eq_comm]
  · exact h.engines.trans length.symm
  · rintro _ ⟨⟩ fallen
    exact h.orderly.apart t (Or.inl fallen) queued
  · intro u member
    rcases List.mem_cons.1 member with rfl | member
    · obtain ⟨r, here, runs⟩ := Commons.status?_eq_some_iff.1 running
      obtain ⟨r', there, becomes⟩ := later u r here
      exact ⟨r', there, becomes.started (TaskRecord.status_eq_running_iff.1 runs).2.1⟩
    · exact started_later h.started later u member
  · intro u done
    refine List.count_cons_of_ne ?_
    rintro rfl
    have both := running.symm.trans done
    cases both

/-- The drive that is under way comes to its end. -/
theorem Sound.finish (h : k.Sound) {o : Ongoing σ} (busy : k.ongoing = some o) (e : DriveEnd) :
    let k' := { k with
      pool := (k.pool.endDrive o.task (.finished e) (k.scene o)).2, ongoing := none }
    k'.Sound ∧ k.Onward k' := by
  have gone : k.Away o.task := Or.inr ⟨o, busy, rfl⟩
  have only : ∀ u, (u ∈ k.fallen ∨ ∃ d : Ongoing σ, none = some d ∧ d.task = u) ↔
      k.Away u ∧ u ≠ o.task := by
    intro u
    simp only [Away, busy, reduceCtorEq, false_and, exists_false, or_false, Option.some.injEq,
      exists_eq_left']
    constructor
    · intro fallen
      exact ⟨Or.inl fallen, fun same => h.standing o busy (same ▸ fallen)⟩
    · rintro ⟨fallen | same, ne⟩
      · exact fallen
      · exact absurd same.symm ne
  have started : (k.scene o).commons.Orderly k.Away := h.orderly
  obtain ⟨orderly, later, length⟩ := started.endDrive (s := k.pool) (e := e) gone only
  refine ⟨⟨orderly, ?_, ?_, started_later h.started later⟩, later, fun _ _ => rfl⟩
  · exact List.length_set.trans (h.engines.trans length.symm)
  · rintro _ ⟨⟩

/-- Every step keeps tasks in order, and nothing falls back. -/
theorem Sound.next (h : k.Sound) (step : Next exec k k') : k'.Sound ∧ k.Onward k' := by
  cases step with
  | outside change => exact h.keep change.keeps rfl rfl h.standing rfl
  | spawn body =>
    obtain ⟨orderly, later⟩ := h.orderly.addTask
    refine ⟨⟨orderly, ?_, h.standing, started_later h.started later⟩, later, fun _ _ => rfl⟩
    change (k.pool.engines ++ [_]).length = (k.commons.tasks ++ [_]).length
    rw [List.length_append, List.length_append, h.engines]
    rfl
  | drive idle next begun =>
    obtain ⟨engine, -, rfl, rfl⟩ := TaskPool.beginDrive?_eq_some_iff.1 begun
    exact h.begin idle next engine _
  | commit busy rest => exact h.goOn busy rfl (Commons.Keeps.refl _)
  | @answer o op next r c f busy rest answer =>
    have keeps : Commons.Keeps k.Away _ _ := Commons.keeps_perform op k.commons o.fiber
    rw [answer] at keeps
    exact h.goOn busy rfl keeps
  | @refuse o op next v c f busy rest answer =>
    have keeps : Commons.Keeps k.Away _ _ := Commons.keeps_perform op k.commons o.fiber
    rw [answer] at keeps
    exact h.goOn busy rfl keeps
  | finish busy rest => exact h.finish busy _
  | @fall o message busy rest =>
    refine h.keep (Commons.keeps_stopListening k.commons o.fiber) ?_ ?_ ?_ rfl
    · funext t
      simp [Away, busy, or_comm, eq_comm]
    · exact List.length_set
    · rintro _ ⟨⟩

theorem Sound.reaches (h : k.Sound) (run : Reaches exec k k') : k'.Sound ∧ k.Onward k' := by
  induction run with
  | refl => exact ⟨h, .refl k⟩
  | tail _ step ih =>
    obtain ⟨sound, onward⟩ := ih
    obtain ⟨sound', onward'⟩ := sound.next step
    exact ⟨sound', onward.trans onward'⟩

/-! ## The life of every task -/

/-- What holds of the tasks of a course at any point. -/
structure Lawful (exec : σ → Drive σ DriveEnd) (k : Course σ) : Prop where
  /-- No task stands in the queue twice. -/
  once : ∀ t, k.commons.queue.count t ≤ 1
  /-- Between two drives a task runs exactly when it stands in the queue. -/
  running_iff : k.ongoing = none → ∀ t, t ∉ k.fallen →
    (k.commons.status? t = some .running ↔ t ∈ k.commons.queue)
  created : ∀ t, k.commons.status? t = some .created → t ∉ k.driven
  /-- A task that is done stays so and is not driven any more. -/
  done : ∀ t, k.commons.status? t = some .done → ∀ k', Reaches exec k k' →
    k'.commons.status? t = some .done ∧ k'.driven.count t = k.driven.count t
  result : ∀ t r result, k.commons.task? t = some r → r.result = some result →
    ∀ k', Reaches exec k k' → ∃ r', k'.commons.task? t = some r' ∧ r'.result = some result
  start_failed : ∀ t e, (k.commons.start t).1 = .error e → (k.commons.start t).2 = k.commons
  startFrom_failed : ∀ current t e, (k.commons.startFrom current t).1 = .error e →
    (k.commons.startFrom current t).2 = k.commons
  /-- A task that is not paused is not resumed, and none is if the executor refuses it. -/
  resume_idle : ∀ t, k.commons.status? t ≠ some .paused ∨ k.commons.accepts = false →
    k.commons.resume t = k.commons
  resume_paused : ∀ t r, k.commons.task? t = some r → r.status = .paused →
    k.commons.accepts = true → k.commons.resume t = k.commons.queued t { r with running := true }

theorem Sound.isLawful (h : k.Sound) : k.Lawful exec where
  once := List.nodup_iff_count_le_one.1 h.orderly.nodup
  running_iff idle t standing := by
    rw [h.orderly.running_iff t]
    simp [Away, idle, standing]
  created t created driven := by
    obtain ⟨r, here, started⟩ := h.started t driven
    obtain ⟨r', there, stage⟩ := Commons.status?_eq_some_iff.1 created
    rw [here] at there
    cases there
    have fresh := (TaskRecord.status_eq_created_iff.1 stage).2
    rw [started] at fresh
    cases fresh
  done t done k' run := by
    obtain ⟨-, onward⟩ := h.reaches run
    exact ⟨status?_done onward.later done, onward.driven t done⟩
  result t r result here given k' run := by
    obtain ⟨-, onward⟩ := h.reaches run
    obtain ⟨r', there, becomes⟩ := onward.later t r here
    exact ⟨r', there, becomes.result result given⟩
  start_failed _ _ := h.orderly.start_error
  startFrom_failed _ _ _ := h.orderly.startFrom_error
  resume_idle t idle := by
    obtain ⟨r, here, paused, accepts, -⟩ | same := h.orderly.resume_cases t
    · rcases idle with idle | refuses
      · exact absurd (Commons.status?_eq_some_iff.2 ⟨r, here, paused⟩) idle
      · rw [accepts] at refuses
        cases refuses
    · exact same
  resume_paused t r here paused accepts := h.orderly.resume_paused here paused accepts

/-- Whatever happens, and whatever the bodies of the tasks are, their lives are lawful. -/
theorem lawful (run : Reaches exec initial k) : k.Lawful exec :=
  (sound_initial.reaches run).1.isLawful

/-- A body that waits for a message and ends with it. -/
def receiving : Unit → Drive Unit DriveEnd := fun _ =>
  .ask (.get ⟨0⟩) fun (message : Option Value) =>
    .done (message.elim .pending fun v => .ready (.ok v))

/-- The first task pauses until a message comes, and ends with it.  The second one pauses as
well; after a shutdown it is not resumed, and a third one is not started. -/
theorem lawful_receiving : ∃ k, Reaches receiving initial k ∧ k.Lawful receiving ∧
    k.commons.status? ⟨1⟩ = some .done ∧ k.commons.status? ⟨2⟩ = some .paused ∧
    k.commons.status? ⟨3⟩ = some .created ∧ k.driven = [⟨2⟩, ⟨1⟩, ⟨1⟩] ∧ k.commons.queue = [] ∧
    k.commons.resume ⟨2⟩ = k.commons ∧
    (k.commons.start ⟨3⟩).1 = .error .executorShutdown ∧ (k.commons.start ⟨3⟩).2 = k.commons := by
  have box := Relation.ReflTransGen.single
    (.outside (.ask (.makeBox 1) .detached) : Next receiving initial _)
  have made := ((box.tail (.spawn ())).tail (.spawn ())).tail (.spawn ())
  have started := (made.tail (.outside (.start ⟨1⟩))).tail (.drive rfl rfl rfl)
  have paused := (started.tail (.answer rfl rfl rfl)).tail (.finish rfl rfl)
  have woken := (paused.tail (.outside (.tryPut ⟨0⟩ (.bool true)))).tail (.drive rfl rfl rfl)
  have ended := (woken.tail (.answer rfl rfl rfl)).tail (.finish rfl rfl)
  have second := (ended.tail (.outside (.start ⟨2⟩))).tail (.drive rfl rfl rfl)
  have waits := (second.tail (.answer rfl rfl rfl)).tail (.finish rfl rfl)
  have closed := waits.tail (.outside (.ask .shutdown .detached))
  have laws := lawful closed
  exact ⟨_, closed, laws, rfl, rfl, rfl, rfl, rfl, laws.resume_idle ⟨2⟩ (Or.inr rfl), rfl,
    laws.start_failed ⟨3⟩ .executorShutdown rfl⟩

/-! ## The steps of a pool -/

/-- What is left of a drive at its end. -/
def rest {α : Type} : Ending α → Drive σ α
  | .finished a => .done a
  | .violated message => .violate message
  | .diverged => .diverge

/-- The drive of a task is under way in a scene. -/
def driving (k : Course σ) (t : TaskId) (d : Drive σ DriveEnd) (s : Scene σ) : Course σ :=
  { k.withCommons s.commons with
    ongoing := some { task := t, rest := d, fiber := s.fiber, body := s.body } }

/-- A drive gets to its end while time goes by. -/
theorem reaches_runTimed (d : Drive σ DriveEnd) (left : Nat) (s : Scene σ) :
    Reaches exec (k.driving t d s)
      (k.driving t (rest (d.runTimed left s).1) (d.runTimed left s).2) := by
  induction d generalizing left s with
  | done a => exact .refl
  | violate message => exact .refl
  | diverge => exact .refl
  | commit body next ih => exact .head (.commit rfl rfl) (ih () left { s with body })
  | ask op next ih =>
    let c := if left = 0 then s.commons.tick else s.commons
    have ticked : Reaches exec (k.driving t (.ask op next) s)
        (k.driving t (.ask op next) { s with commons := c }) := by
      unfold c
      split
      · exact .single (.outside (.advance _))
      · exact .refl
    rw [Drive.runTimed]
    rcases answer : op.perform c s.fiber with ⟨v | r, c', f⟩
    · refine ticked.tail (Next.refuse (k := k.driving t _ { s with commons := c }) rfl rfl ?_)
      exact answer
    · have answered : Reaches exec (k.driving t (.ask op next) s)
          (k.driving t (next r) { s with commons := c', fiber := f }) := by
        refine ticked.tail (Next.answer (k := k.driving t _ { s with commons := c }) rfl rfl ?_)
        exact answer
      exact answered.trans (ih r _ _)

/-- A step of a pool is what happens in a course while nobody interferes. -/
theorem reaches_step? (h : k.Sound) (idle : k.ongoing = none) {ending : Ending Unit}
    {pool : TaskPool σ} (step : k.pool.step? exec = some (t, ending, pool))
    (ends : ending ≠ .diverged) :
    ∃ k', Reaches exec k k' ∧ k'.pool = pool ∧ k'.ongoing = none ∧ k'.driven = t :: k.driven := by
  obtain ⟨queue, next, same⟩ := TaskPool.step?_cases step
  have queued : t ∈ k.commons.queue := by
    rw [commons, next]
    exact List.mem_cons_self
  obtain ⟨r, here, -⟩ := Commons.status?_eq_some_iff.1 ((h.orderly.running_iff t).2 (Or.inl queued))
  obtain ⟨engine, found⟩ := TaskPool.engine?_of_task? (s := k.pool.popped queue) h.engines here
  let begun : Course σ := ({ k with driven := t :: k.driven } : Course σ).driving t
    (exec engine.body) ((k.pool.popped queue).opening engine)
  have begins : Reaches exec k begun := .single
    (.drive idle next (TaskPool.beginDrive?_eq_some_iff.2 ⟨engine, found, rfl, rfl⟩))
  have run := begins.trans (reaches_runTimed (exec engine.body) Commons.pace
    ((k.pool.popped queue).opening engine))
  rw [TaskPool.drive_some found] at same
  rcases out : (exec engine.body).runTimed Commons.pace ((k.pool.popped queue).opening engine) with
    ⟨e, scene⟩
  rw [out] at same run
  cases e with
  | finished e =>
    refine ⟨_, run.tail (.finish rfl rfl), ?_, rfl, rfl⟩
    exact congrArg Prod.snd same
  | violated message =>
    refine ⟨_, run.tail (.fall rfl rfl), ?_, rfl, rfl⟩
    exact congrArg Prod.snd same
  | diverged => exact absurd (congrArg Prod.fst same).symm ends

end Course

end Resumable
