import Resumable.Proofs.Machine.Continuation
import Resumable.Proofs.Task.Chronicle
import Resumable.Script.Body

/-!
# Calls that act once

The tasks of a course whose bodies are machines on woven procedures.  Such a task is suspended
and driven again, and between two of its drives, or two requests of one, others put and take
messages.  Still each of its calls acts once (`Course.acts_once`): a put that returns was
accepted by its last request and refused by all others, a get took one message, by its last
request, a sleep armed one timer, and nothing else was asked for between the call and its
return.
-/

namespace Resumable

namespace Machine

variable {original program : Program} {entry : ProcId} {args : List Value} {m : Machine}
  {es : List Deed} {names : Names} {fuel : Nat} {f f' : Fiber} {log asks : List Ask} {b : Body}

/-- What the machine of a task has done in its drives, each of which but perhaps the last one
has left the task waiting, with the requests that were answered. -/
inductive Lived (program : Program) (entry : ProcId) (args : List Value) :
    List Ask → List Deed → Prop
  | waits {asks : List Ask} {es : List Deed} {m : Machine} {f : Fiber}
      (lives : Lives program entry args asks es m f) : Lived program entry args asks es
  | last {asks log : List Ask} {es more : List Deed} {m m' : Machine} {f f₀ f' : Fiber}
      {e : Ending (Except MachineFault Outcome)} (lives : Lives program entry args asks es m f)
      (kept : f₀.frames = f.frames) (drive : m.Tells f₀ log more e f' m') :
    Lived program entry args (asks ++ log) (es ++ more)

theorem Lives.told (lives : Lives program entry args asks es m f) :
    es.filterMap Deed.ask? = Ask.outward asks := by
  induction lives with
  | born clean => rfl
  | driven before kept drive waits ih =>
    rw [List.filterMap_append, ih, drive.told, Ask.outward_append]

/-- What the deeds ask for is what was asked of others. -/
theorem Lived.told (lived : Lived program entry args asks es) :
    es.filterMap Deed.ask? = Ask.outward asks := by
  cases lived with
  | waits lives => exact lives.told
  | last lives kept drive =>
    rw [List.filterMap_append, lives.told, drive.told, Ask.outward_append]

/-- However often the machine was suspended, it has done what an uninterrupted run does. -/
theorem Lived.unbroken (mirrors : original.Mirrors program)
    (lived : Lived program entry args asks es) : Unbroken original (.ofCall entry args) es := by
  cases lived with
  | waits lives =>
    cases lives.rests mirrors with
    | fresh clean => exact Config.Begins.nothing.unbroken
    | left same waits reaches => exact reaches.unbroken
  | last lives kept drive => exact ((lives.rests mirrors).drive mirrors kept drive).2.1

/-- The deeds of a drive of a task. -/
theorem tells_of_execute {e : Ending DriveEnd}
    (run : Drive.Logs ((Body.machine m).execute names fuel) f (.machine m) log e f' b) :
    ∃ m' es r, b = .machine m' ∧ m.Tells f log es r f' m' ∧
      (e = .finished .pending → r = .finished (.ok .suspended)) := by
  obtain ⟨m', rfl, executes⟩ := run.of_mapState
  change Drive.Logs (Drive.bind (m.advance fuel) _) f m log e f' m' at executes
  rcases executes.bind_cases with ⟨result, f₁, m₁, first, second, rfl, advance, rest⟩ |
    ⟨message, rfl, advance⟩ | ⟨rfl, advance⟩
  · cases rest
    obtain ⟨es, tells⟩ := exists_tells advance
    rw [List.append_nil]
    refine ⟨_, es, _, rfl, tells, fun pending => ?_⟩
    rcases result with fault | (⟨v⟩ | ⟨v⟩) | -
    all_goals first
      | rfl
      | cases pending
  all_goals
    obtain ⟨es, tells⟩ := exists_tells advance
    exact ⟨_, es, _, rfl, tells, by rintro ⟨⟩⟩

/-- The career of a machine is its life so far. -/
theorem lives_of_career (career : Course.Career (Body.execute names fuel)
      (.machine (ofEntry program entry args)) asks b f) :
    ∃ m es, b = .machine m ∧ Lives program entry args asks es m f := by
  induction career with
  | nil clean => exact ⟨_, _, rfl, .born clean⟩
  | snoc before kept drive waits ih =>
    obtain ⟨m, es, rfl, lives⟩ := ih
    obtain ⟨m', more, r, rfl, tells, suspended⟩ := tells_of_execute drive
    obtain rfl := suspended rfl
    exact ⟨m', _, rfl, .driven lives kept tells waits⟩

end Machine

namespace Course

open Machine (Lived)

variable {unit : CompilationUnit} {external : ExternalResolver} {config : AnalysisConfig}
  {program : Program} {entry : ProcId} {args : List Value} {names : Names} {fuel : Nat}
  {k k' : Course Body} {t : TaskId} {log : List (TaskId × Ask)} {asks : List Ask}

/-- What the machine of a task has done by the end of the drive that is under way, if there is
one. -/
theorem Standing.lived (h : Standing (Body.execute names fuel) t
      (.machine (.ofEntry program entry args)) asks k) :
    ∃ es later, Lived program entry args (asks ++ later) es ∧
      ((∀ o, k.ongoing = some o → o.task ≠ t) → later = []) := by
  have last : ∀ {asks log : List Ask} {b b' : Body} {f f₀ f' : Fiber} {e : Ending DriveEnd},
      Career (Body.execute names fuel) (.machine (.ofEntry program entry args)) asks b f →
      f₀.frames = f.frames → Drive.Logs (b.execute names fuel) f₀ b log e f' b' →
      ∃ es, Lived program entry args (asks ++ log) es := by
    intro asks log b b' f f₀ f' e career kept drive
    obtain ⟨m, es, rfl, lives⟩ := Machine.lives_of_career career
    obtain ⟨m', more, r, rfl, tells, -⟩ := Machine.tells_of_execute drive
    exact ⟨_, .last lives kept tells⟩
  cases h with
  | waits apart here career kept =>
    obtain ⟨m, es, -, lives⟩ := Machine.lives_of_career career
    refine ⟨es, [], ?_, fun _ => rfl⟩
    rw [List.append_nil]
    exact .waits lives
  | @driven _ asks log o body f f₀ busy own career kept completes =>
    -- the drive that is under way is run to its end, with any answers
    obtain ⟨more, e, f', b', rest⟩ := o.rest.exists_logs o.fiber o.body
    obtain ⟨es, lived⟩ := last career kept (completes more e f' b' rest)
    refine ⟨es, more, ?_, fun apart => absurd own (apart o busy)⟩
    rw [List.append_assoc]
    exact lived
  | past apart ended career kept drive =>
    obtain ⟨es, lived⟩ := last career kept drive
    refine ⟨es, [], ?_, fun _ => rfl⟩
    rw [List.append_nil]
    exact lived

/-- A task is made whose body is a machine on the woven procedures of a unit.  Whatever happens
then, the machine has done what an uninterrupted run of the original procedures does.  What it
has asked of others is all in its deeds, and each call of a primitive acts once.  If the task is
being driven, the deeds are those until the end of a drive that goes on like this one. -/
theorem acts_once (clean : unit.WeavesCleanly external config)
    (before : Reaches (Body.execute names fuel) initial k)
    (run : Chronicle (Body.execute names fuel)
      (k.spawned (.machine (.ofEntry (unit.wovenProgram external config) entry args))) log k')
    (new : t = k.commons.addTask.1) :
    ∃ es later, Lived (unit.wovenProgram external config) entry args (asksOf t log ++ later) es ∧
      ((∀ o, k'.ongoing = some o → o.task ≠ t) → later = []) ∧
      es.filterMap Deed.ask? = Ask.outward (asksOf t log ++ later) ∧
      Unbroken ⟨unit.procedures⟩ (.ofCall entry args) es ∧
      ∀ before which vs after, es = before ++ .called which vs :: after →
        which.Acts vs after := by
  subst new
  obtain ⟨sound, -⟩ := sound_initial.reaches before
  obtain ⟨sound', -⟩ := sound_initial.reaches (before.tail (.spawn _))
  obtain ⟨es, later, lived, whole⟩ := (run.standing sound' (sound.standing_spawned _)).lived
  have unbroken := lived.unbroken clean.mirrors
  exact ⟨es, later, lived, whole, lived.told, unbroken, fun _ _ _ _ here => unbroken.acts here⟩

end Course

/-! ## A call that waits -/

namespace Courier

/-- Prints something and puts a message into a mailbox. -/
def carry : Procedure :=
  Relay.straight "carry" [⟨⟨0⟩, some "box", .mailbox, true⟩] []
    [.call none Primitive.print.call [.const (.int 1)],
      .call none Primitive.put.call [.local ⟨0⟩, .const (.int 7)]] (.const .unit)

def unit : CompilationUnit :=
  { name := "courier", types := [], procedures := [carry] }

theorem clean : unit.WeavesCleanly ExternalMetadata.empty .standard where
  unwoven := by decide
  notInitializer := by decide
  unsealed := by decide
  primitives := by decide
  failures := by decide +kernel

def program : Program := unit.wovenProgram ExternalMetadata.empty .standard

/-- A machine that carries its message to the first mailbox. -/
def body : Body := .machine (.ofEntry program carry.id [.mailbox ⟨0⟩])

abbrev exec : Body → Drive Body DriveEnd := Body.execute .empty 20

/-- The mailbox is full when the task is started. -/
def start : Course Body :=
  let made := (Course.initial : Course Body).spawned body
  let boxes := made.withCommons (Op.perform made.commons .detached (.makeBox 1)).2.1
  let filled := boxes.withCommons (boxes.commons.tryPut ⟨0⟩ (.int 1)).2
  filled.withCommons (filled.commons.start ⟨1⟩).2

/-- The task was driven once and waits. -/
def waiting : TaskPool Body := ((start.pool.popped []).drive exec ⟨1⟩).2

/-- The message in the mailbox was taken. -/
def relieved : TaskPool Body :=
  { waiting with commons := (Op.perform waiting.commons .detached (.getNb ⟨0⟩)).2.1 }

/-- A drive of the first task of the queue. -/
theorem reaches_drive {k : Course Body} {t : TaskId} {queue : List TaskId} (sound : k.Sound)
    (idle : k.ongoing = none) (next : k.commons.queue = t :: queue)
    (ends : ((k.pool.popped queue).drive exec t).1 = .finished ()) :
    ∃ k', Course.Reaches exec k k' ∧ k'.pool = ((k.pool.popped queue).drive exec t).2 ∧
      k'.ongoing = none ∧ k'.driven = t :: k.driven := by
  have step : k.pool.step? exec =
      some (t, .finished (), ((k.pool.popped queue).drive exec t).2) := by
    unfold TaskPool.step?
    rw [show k.pool.commons.queue = t :: queue from next, ← ends]
    rfl
  exact Course.reaches_step? sound idle step (by rintro ⟨⟩)

end Courier

namespace Course

open Machine (Lived)

/-- A put that is refused in the first drive and accepted in the second one.  What was printed
before it is printed once. -/
theorem acts_once_courier : ∃ log k,
    Chronicle Courier.exec (initial.spawned Courier.body) log k ∧
      k.driven = [⟨1⟩, ⟨1⟩] ∧ k.commons.messages ⟨0⟩ = [.int 7] ∧ k.commons.output = [.int 1] ∧
      ∃ es, Lived Courier.program Courier.carry.id [.mailbox ⟨0⟩] (asksOf ⟨1⟩ log) es ∧
        es.filterMap Deed.ask? = Ask.outward (asksOf ⟨1⟩ log) ∧
        Unbroken ⟨Courier.unit.procedures⟩ (.ofCall Courier.carry.id [.mailbox ⟨0⟩]) es ∧
        ∀ before which vs after, es = before ++ .called which vs :: after →
          which.Acts vs after := by
  have made : Reaches Courier.exec (initial.spawned Courier.body) Courier.start :=
    ((Relation.ReflTransGen.single (.outside (.ask (.makeBox 1) .detached))).tail
      (.outside (.tryPut ⟨0⟩ (.int 1)))).tail (.outside (.start ⟨1⟩))
  have spawned : Reaches Courier.exec initial (initial.spawned Courier.body) :=
    .single (.spawn Courier.body)
  obtain ⟨k₁, first, pool₁, idle₁, driven₁⟩ := Courier.reaches_drive
    (sound_initial.reaches (spawned.trans made)).1 rfl
    (show Courier.start.commons.queue = [⟨1⟩] from rfl) (by decide +kernel)
  have taken := first.tail (.outside (.ask (.getNb ⟨0⟩) .detached))
  have same : (k₁.withCommons (Op.perform k₁.commons .detached (.getNb ⟨0⟩)).2.1).pool =
      Courier.relieved := by
    unfold withCommons commons
    rw [pool₁]
    rfl
  have queue : (k₁.withCommons (Op.perform k₁.commons .detached (.getNb ⟨0⟩)).2.1).commons.queue =
      [⟨1⟩] :=
    (congrArg (·.commons.queue) same).trans (by decide +kernel)
  obtain ⟨k₂, second, pool₂, idle₂, driven₂⟩ := Courier.reaches_drive
    (sound_initial.reaches ((spawned.trans made).trans taken)).1 idle₁ queue
    (by rw [same]; decide +kernel)
  rw [same] at pool₂
  obtain ⟨log, run⟩ := Reaches.exists_chronicle ((made.trans taken).trans second)
  obtain ⟨es, later, lived, whole, told, unbroken, acts⟩ :=
    acts_once Courier.clean .refl run rfl
  rw [whole (by rw [idle₂]; rintro o ⟨⟩), List.append_nil] at lived told
  refine ⟨log, k₂, run, ?_, ?_, ?_, es, lived, told, unbroken, acts⟩
  · exact driven₂.trans (congrArg (List.cons _) driven₁)
  · rw [commons, pool₂]
    decide +kernel
  · rw [commons, pool₂]
    decide +kernel

end Course

end Resumable
