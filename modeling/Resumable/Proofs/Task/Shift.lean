import Mathlib.Logic.Function.Basic
import Mathlib.Logic.Relation
import Resumable.Proofs.Task.Orderly

/-!
# Tasks on any number of workers

`Shift` is a number of tasks with workers that drive them at the same time, together with the
exit messages that are asked for, on their way and put.  `Shift.Next` is everything that can
happen, one change under a lock at a time, so whatever is done in several changes can be
interrupted: a task that has ended is done before it informs anybody, and a task that pauses
stops to run before it is resumed.

Nothing is known of bodies.  A task that is driven makes any requests and may go on after one
that broke the rules; its drive ends with a pause or a result of any kind, or falls.

Tasks stay in order (`Shift.Sound.reaches`).  Most of what happens has nothing to do with the
ends of tasks (`Commons.SameEnds`).
-/

namespace Resumable

/-! ## The ends of tasks -/

namespace Commons

variable {c c' c'' : Commons} {t u : TaskId} {r r₀ : TaskRecord} {e : ExitBoxId}

/-- How a task ended, if it is done. -/
def result? (c : Commons) (t : TaskId) : Option TaskResult := (c.task? t).bind (·.result)

/-- The exit mailboxes that wait for the end of a task. -/
def informed (c : Commons) (t : TaskId) : List ExitBoxId :=
  ((c.task? t).map (·.informed)).getD []

/-- Whether there is room for an exit message. -/
def hasExitSpace (c : Commons) (e : ExitBoxId) : Bool := c.exitBoxes[e.index]?.any (·.hasSpace)

theorem result?_setTask (here : c.task? t = some r₀) :
    (c.setTask t r).result? u = if u = t then r.result else c.result? u := by
  unfold result?
  rw [task?_setTask here]
  split <;> rfl

theorem informed_setTask (here : c.task? t = some r₀) :
    (c.setTask t r).informed u = if u = t then r.informed else c.informed u := by
  unfold informed
  rw [task?_setTask here]
  split <;> rfl

/-- A task is done when it has a result. -/
theorem Orderly.done_iff {away : TaskId → Prop} (h : c.Orderly away) :
    c.status? t = some .done ↔ c.result? t ≠ none := by
  rw [status?_eq_some_iff]
  unfold result?
  cases here : c.task? t with
  | none => simp
  | some r =>
    have sound := h.sound t r here
    simp only [Option.some.injEq, exists_eq_left', Option.bind_some,
      TaskRecord.status_eq_done_iff]
    constructor
    · intro done none
      obtain ⟨-, given⟩ := sound.done done
      rw [none] at given
      cases given
    · intro given
      cases done : r.done with
      | true => rfl
      | false =>
        cases started : r.started with
        | true => exact absurd (sound.live started done).2 given
        | false => exact absurd (sound.created started).2.2.2 given

theorem informOnExit_none (here : c.task? t = some r) (unended : r.result = none) :
    c.informOnExit t e = c.setTask t { r with informed := r.informed ++ [e] } := by
  unfold informOnExit
  simp only [here, unended]

theorem informOnExit_some (here : c.task? t = some r) {result : TaskResult}
    (given : r.result = some result) :
    c.informOnExit t e = c.notifyExit { task := t, result } e := by
  unfold informOnExit
  simp only [here, given]

/-! ## What leaves the ends of tasks alone -/

/-- No task ends, and nobody asks for it. -/
structure SameEnds (c c' : Commons) : Prop where
  result : ∀ t, c'.result? t = c.result? t
  informed : ∀ t, c'.informed t = c.informed t

/-- Exit mailboxes are left alone as well. -/
structure Spares (c c' : Commons) : Prop extends SameEnds c c' where
  exits : c'.exitBoxes = c.exitBoxes

theorem SameEnds.refl (c : Commons) : c.SameEnds c := ⟨fun _ => rfl, fun _ => rfl⟩

theorem SameEnds.trans (h : c.SameEnds c') (h' : c'.SameEnds c'') : c.SameEnds c'' where
  result t := (h'.result t).trans (h.result t)
  informed t := (h'.informed t).trans (h.informed t)

theorem Spares.refl (c : Commons) : c.Spares c := ⟨.refl c, rfl⟩

theorem Spares.trans (h : c.Spares c') (h' : c'.Spares c'') : c.Spares c'' :=
  ⟨h.toSameEnds.trans h'.toSameEnds, h'.exits.trans h.exits⟩

theorem sameEnds_same (c : Commons) (tasks : c'.tasks = c.tasks) : c.SameEnds c' := by
  have same : ∀ t, c'.task? t = c.task? t := fun t => by
    unfold task?
    rw [tasks]
  exact ⟨fun t => congrArg (Option.bind · _) (same t),
    fun t => congrArg (fun r => (Option.map _ r).getD []) (same t)⟩

theorem spares_same (c : Commons) (tasks : c'.tasks = c.tasks)
    (exits : c'.exitBoxes = c.exitBoxes) : c.Spares c' :=
  ⟨sameEnds_same c tasks, exits⟩

/-- A record may change in what does not concern the end. -/
theorem spares_setTask (here : c.task? t = some r₀) (result : r.result = r₀.result)
    (informed : r.informed = r₀.informed) : c.Spares (c.setTask t r) := by
  refine ⟨⟨fun u => ?_, fun u => ?_⟩, rfl⟩
  · rw [result?_setTask here]
    split
    · rename_i same
      rw [same, result, result?, here, Option.bind_some]
    · rfl
  · rw [informed_setTask here]
    split
    · rename_i same
      rw [same, informed, Commons.informed, here]
      rfl
    · rfl

theorem spares_paused (here : c.task? t = some r) (why : PauseReason) :
    c.Spares (c.paused t r why) :=
  spares_setTask here rfl rfl

theorem spares_queued (here : c.task? t = some r₀) (result : r.result = r₀.result)
    (informed : r.informed = r₀.informed) : c.Spares (c.queued t r) :=
  (spares_setTask here result informed).trans (spares_same _ rfl rfl)

theorem spares_start (c : Commons) (t : TaskId) : c.Spares (c.start t).2 := by
  obtain ⟨r, here, -, -, same⟩ | ⟨e, same⟩ | ⟨r, here, -, -, same⟩ := start_cases c t
  · rw [same]
    exact spares_queued here rfl rfl
  · rw [same]
    exact .refl c
  · rw [same]
    exact spares_setTask here rfl rfl

theorem spares_startFrom (c : Commons) (current : Option TaskId) (t : TaskId) :
    c.Spares (c.startFrom current t).2 := by
  unfold startFrom
  split
  · split
    · exact spares_start c t
    · exact .refl c
  · exact .refl c

theorem spares_resume (c : Commons) (t : TaskId) : c.Spares (c.resume t) := by
  obtain ⟨r, here, -, -, -, same⟩ | same | ⟨r, here, -, -, same⟩ := resume_cases c t
  · rw [same]
    exact spares_queued here rfl rfl
  · rw [same]
    exact .refl c
  · rw [same]
    exact spares_setTask here rfl rfl

theorem spares_wake (c : Commons) (woken : Option TaskId) : c.Spares (c.wake woken) := by
  cases woken with
  | none => exact .refl c
  | some t => exact spares_resume c t

/-- A mailbox changes and a task is woken. -/
theorem spares_setBox_wake (c : Commons) (id : MailboxId) (m : Mailbox Value)
    (woken : Option TaskId) : c.Spares ((c.setBox id m).wake woken) :=
  (spares_same c rfl rfl : c.Spares (c.setBox id m)).trans (spares_wake _ woken)

theorem spares_tryPut (c : Commons) (id : MailboxId) (v : Value) : c.Spares (c.tryPut id v).2 := by
  unfold tryPut
  split
  · exact spares_setBox_wake c id _ _
  · exact .refl c

theorem spares_putNb (c : Commons) (id : MailboxId) (v : Value) : c.Spares (c.putNb id v).2 := by
  rw [putNb_eq]
  exact spares_tryPut c id v

theorem spares_getNb (c : Commons) (id : MailboxId) : c.Spares (c.getNb id).2 := by
  unfold getNb
  split
  · exact spares_setBox_wake c id _ _
  · exact .refl c

theorem spares_get (c : Commons) (f : Fiber) (id : MailboxId) : c.Spares (c.get f id).2.1 := by
  unfold get
  repeat' split
  all_goals first
    | exact .refl c
    | exact spares_same c rfl rfl
    | exact spares_setBox_wake c id _ _

theorem spares_put (c : Commons) (f : Fiber) (id : MailboxId) (v : Value) :
    c.Spares (c.put f id v).2.1 := by
  unfold put
  repeat' split
  all_goals first
    | exact .refl c
    | exact spares_same c rfl rfl
    | exact spares_setBox_wake c id _ _

theorem spares_advance (c : Commons) (time : Nat) : c.Spares (c.advance time) := by
  rw [advance_eq]
  exact List.foldlRecOn _ _ (spares_same c rfl rfl) fun c' before e _ =>
    before.trans (spares_putNb c' e.payload.1 e.payload.2)

theorem spares_stopListening (c : Commons) (f : Fiber) : c.Spares (c.stopListening f).1 := by
  unfold stopListening
  split
  · exact .refl c
  · refine List.foldlRecOn _ _ (Spares.refl _) fun c' before box _ => before.trans ?_
    unfold forget
    split
    · exact spares_same c' rfl rfl
    · exact .refl c'

/-- No request of a body ends a task. -/
theorem spares_perform (op : Op) (c : Commons) (f : Fiber) : c.Spares (op.perform c f).2.1 := by
  cases op with
  | getNb box => exact spares_getNb c box
  | putNb box v => exact spares_putNb c box v
  | get box => exact spares_get c f box
  | put box v => exact spares_put c f box v
  | start t => exact spares_startFrom c f.task t
  | resume t => exact spares_resume c t
  | setFlag flag raised =>
    change c.Spares (c.setFlag flag raised)
    unfold setFlag
    repeat' split
    all_goals exact spares_same c rfl rfl
  | _ => exact spares_same c rfl rfl

/-- A new task has not ended. -/
theorem spares_addTask (c : Commons) : c.Spares c.addTask.2 := by
  have new := task?_addTask_new c
  refine ⟨⟨fun t => ?_, fun t => ?_⟩, rfl⟩
  · unfold result?
    rw [task?_addTask]
    split
    · rename_i same
      rw [same, new]
      rfl
    · rfl
  · unfold informed
    rw [task?_addTask]
    split
    · rename_i same
      rw [same, new]
      rfl
    · rfl

theorem sameEnds_notifyExit (c : Commons) (message : ExitMessage) (e : ExitBoxId) :
    c.SameEnds (c.notifyExit message e) := by
  unfold notifyExit
  split
  · refine SameEnds.trans ?_ (spares_wake _ _).toSameEnds
    exact sameEnds_same c rfl
  · exact .refl c

theorem sameEnds_takeExit? {message : ExitMessage}
    (take : c.takeExit? e = some (message, c')) : c.SameEnds c' := by
  unfold takeExit? at take
  split at take
  · cases take
    refine SameEnds.trans ?_ (spares_wake _ _).toSameEnds
    exact sameEnds_same c rfl
  · cases take

/-! ## What can happen at any time -/

/-- What is done by those that are not driven: other threads, timers, generators. -/
inductive Foreign (c : Commons) : Commons → Prop
  | spawn : Foreign c c.addTask.2
  | start (t : TaskId) : Foreign c (c.start t).2
  /-- A request on a fiber that belongs to no task. -/
  | ask (op : Op) {f : Fiber} (detached : f.task = none) : Foreign c (op.perform c f).2.1
  | tryPut (box : MailboxId) (v : Value) : Foreign c (c.tryPut box v).2
  | advance (time : Nat) : Foreign c (c.advance time)
  | refuse (refusing : Bool) : Foreign c { c with refusing }
  | makeBox {m : Mailbox Value} (made : m.Made) : Foreign c (c.addBox m).2
  | makeExitBox {m : Mailbox ExitMessage} (made : m.Made) : Foreign c (c.addExitBox m).2
  /-- Tasks begin and cease to wait on an exit mailbox. -/
  | attend {e : ExitBoxId} {m : Mailbox ExitMessage} (here : c.exitBoxes[e.index]? = some m)
      (consumer : Option TaskId) (producers : List TaskId) :
    Foreign c { c with exitBoxes := c.exitBoxes.set e.index { m with consumer, producers } }

theorem Foreign.keeps {away : TaskId → Prop} (h : c.Foreign c') (orderly : c.Orderly away) :
    c'.Orderly away ∧ c.Later c' := by
  have kept : Keeps away c c' → c'.Orderly away ∧ c.Later c' := fun keeps =>
    ⟨(keeps orderly).1, (keeps orderly).2.later⟩
  cases h with
  | spawn => exact orderly.addTask
  | start t => exact kept (keeps_start c t)
  | ask op detached => exact kept (keeps_perform op c _)
  | tryPut box v => exact kept (keeps_tryPut c box v)
  | advance time => exact kept (keeps_advance c time)
  | refuse refusing => exact kept (keeps_same c rfl rfl)
  | makeBox made => exact kept (keeps_same c rfl rfl)
  | makeExitBox made => exact kept (keeps_same c rfl rfl)
  | attend here consumer producers => exact kept (keeps_same c rfl rfl)

/-- Others end no task. -/
theorem Foreign.sameEnds (h : c.Foreign c') : c.SameEnds c' := by
  cases h with
  | spawn => exact (spares_addTask c).toSameEnds
  | start t => exact (spares_start c t).toSameEnds
  | ask op detached => exact (spares_perform op c _).toSameEnds
  | tryPut box v => exact (spares_tryPut c box v).toSameEnds
  | advance time => exact (spares_advance c time).toSameEnds
  | refuse refusing => exact sameEnds_same c rfl
  | makeBox made => exact sameEnds_same c rfl
  | makeExitBox made => exact sameEnds_same c rfl
  | attend here consumer producers => exact sameEnds_same c rfl

end Commons

/-! ## Shifts -/

section Update

variable {α : Type} (f : TaskId → α)

/-- One task comes to rest. -/
theorem update_ne_iff_and (t u : TaskId) (rest : α) :
    Function.update f t rest u ≠ rest ↔ f u ≠ rest ∧ u ≠ t := by
  rw [Function.update_apply]
  split
  · rename_i same
    exact iff_of_false (· rfl) fun gone => gone.2 same
  · rename_i ne
    exact (and_iff_left ne).symm

/-- One task does not rest. -/
theorem update_ne_iff_or {t u : TaskId} {a rest : α} (stays : a ≠ rest) :
    Function.update f t a u ≠ rest ↔ f u ≠ rest ∨ u = t := by
  rw [Function.update_apply]
  split
  · rename_i same
    exact iff_of_true stays (Or.inr same)
  · rename_i ne
    exact (or_iff_left ne).symm

end Update

/-- Where the drive of a task is. -/
inductive Post where
  /-- The task is not driven. -/
  | home
  | driven
  /-- The drive broke the rules and took its worker with it. -/
  | fallen
  deriving DecidableEq

/-- An exit message and the exit mailbox that it is for. -/
structure Notice where
  message : ExitMessage
  box : ExitBoxId

/-- The request that a notice answers. -/
def Notice.request (n : Notice) : TaskId × ExitBoxId := (n.message.task, n.box)

/-- The notices for the mailboxes that are informed of the end of a task. -/
def notices (t : TaskId) (result : TaskResult) (boxes : List ExitBoxId) : List Notice :=
  boxes.map fun e => { message := { task := t, result }, box := e }

/-- An exit message that was put. -/
structure Arrival where
  notice : Notice
  /-- It comes from somebody else than the task that it tells of. -/
  stray : Bool
  /-- Whether the mailbox had room for it. -/
  room : Bool

/-- Tasks on any number of workers. -/
structure Shift where
  commons : Commons
  fibers : TaskId → Fiber
  post : TaskId → Post
  /-- The requests for exit messages, in order. -/
  asked : List (TaskId × ExitBoxId)
  /-- The exit messages that are still to be put. -/
  due : List Notice
  /-- The exit messages that were put, in order. -/
  arrivals : List Arrival
  /-- The exit messages that were taken, in order. -/
  taken : List Notice

namespace Shift

variable {k k' k'' : Shift} {t : TaskId}

def initial : Shift :=
  { commons := .empty, fibers := fun t => .ofTask (some t), post := fun _ => .home
    asked := [], due := [], arrivals := [], taken := [] }

/-- The exit messages that were put for tasks that have ended. -/
def puts (k : Shift) : List Notice := (k.arrivals.filter (!·.stray)).map (·.notice)

/-- What tasks share once a task has left all mailboxes. -/
def quiet (k : Shift) (t : TaskId) : Commons := (k.commons.stopListening (k.fibers t)).1

/-- Another state of what tasks share and of one task. -/
def set (k : Shift) (t : TaskId) (commons : Commons) (fiber : Fiber) (post : Post) : Shift :=
  { k with
    commons, fibers := Function.update k.fibers t fiber, post := Function.update k.post t post }

/-- An exit message is put, or lost if there is no room for it. -/
def put (k : Shift) (n : Notice) (stray : Bool) : Shift :=
  { k with
    commons := k.commons.notifyExit n.message n.box
    arrivals := k.arrivals ++ [{ notice := n, stray, room := k.commons.hasExitSpace n.box }] }

/-- One thing that happens. -/
inductive Next (k : Shift) : Shift → Prop
  | outside {c : Commons} (change : k.commons.Foreign c) : Next k { k with commons := c }
  /-- A worker takes the next task out of the queue; it does not wait anywhere any more. -/
  | begin {t : TaskId} {queue : List TaskId} (next : k.commons.queue = t :: queue) :
    Next k (k.set t (({ k.commons with queue } : Commons).stopListening (k.fibers t)).1
      { k.fibers t with listening := [] } .driven)
  /-- A body asks for something, whatever the answer is. -/
  | request {t : TaskId} (driven : k.post t = .driven) (op : Op) :
    Next k (k.set t (op.perform k.commons (k.fibers t)).2.1
      (op.perform k.commons (k.fibers t)).2.2 .driven)
  /-- A drive ends with a pause.  The task keeps its place on the mailboxes. -/
  | pause {t : TaskId} {r : TaskRecord} (driven : k.post t = .driven)
      (here : k.commons.task? t = some r) (why : PauseReason) (reason : Option PauseReason) :
    Next k (k.set t (k.commons.paused t r why) { k.fibers t with reason } .home)
  /-- A drive ends with a result.  The mailboxes that asked for it are to be informed. -/
  | finish {t : TaskId} {r : TaskRecord} (driven : k.post t = .driven)
      (here : (k.quiet t).task? t = some r) (result : TaskResult)
      (reason : Option PauseReason) :
    Next k { k.set t ((k.quiet t).setTask t (r.ended result))
        { k.fibers t with reason, listening := [] } .home with
      due := k.due ++ notices t result r.informed }
  /-- A drive ends because the body broke the rules. -/
  | fall {t : TaskId} (driven : k.post t = .driven) :
    Next k (k.set t (k.quiet t) { k.fibers t with listening := [] } .fallen)
  /-- Somebody asks for the exit message of a task that has not ended. -/
  | register {t : TaskId} {r : TaskRecord} {e : ExitBoxId} (here : k.commons.task? t = some r)
      (unended : r.result = none) (box : e.index < k.commons.exitBoxes.length) :
    Next k { k with
      commons := k.commons.setTask t { r with informed := r.informed ++ [e] }
      asked := k.asked ++ [(t, e)] }
  /-- Somebody asks for the exit message of a task that has ended. -/
  | late {t : TaskId} {r : TaskRecord} {e : ExitBoxId} {result : TaskResult}
      (here : k.commons.task? t = some r) (given : r.result = some result)
      (box : e.index < k.commons.exitBoxes.length) :
    Next k { k with
      asked := k.asked ++ [(t, e)]
      due := k.due ++ notices t result [e] }
  /-- An exit message that is due is put. -/
  | deliver {n : Notice} {before after : List Notice} (parts : k.due = before ++ n :: after) :
    Next k { k.put n false with due := before ++ after }
  /-- Somebody puts an exit message of their own. -/
  | stray (n : Notice) : Next k (k.put n true)
  | takeExit {message : ExitMessage} {e : ExitBoxId} {c : Commons}
      (take : k.commons.takeExit? e = some (message, c)) :
    Next k { k with commons := c, taken := k.taken ++ [{ message, box := e }] }

/-- Any number of things that happen, one after the other. -/
def Reaches : Shift → Shift → Prop := Relation.ReflTransGen Next

/-! ## Messages that are due -/

theorem puts_put (n : Notice) : (k.put n false).puts = k.puts ++ [n] := by
  unfold puts Shift.put
  rw [List.filter_append, List.map_append]
  rfl

theorem puts_stray (n : Notice) : (k.put n true).puts = k.puts := by
  unfold puts Shift.put
  rw [List.filter_append, List.map_append]
  exact List.append_nil _

/-- Everything that was due is put, in order, and nothing else happens. -/
structure Delivered (k k' : Shift) : Prop where
  due : k'.due = []
  puts : k'.puts = k.puts ++ k.due
  asked : k'.asked = k.asked
  fibers : k'.fibers = k.fibers
  post : k'.post = k.post
  commons : k'.commons = k.due.foldl (fun c n => c.notifyExit n.message n.box) k.commons

/-- Whatever is due can be put, whatever tasks do. -/
theorem exists_delivered (k : Shift) : ∃ k', Reaches k k' ∧ k.Delivered k' := by
  cases parts : k.due with
  | nil =>
    refine ⟨k, .refl, parts, ?_, rfl, rfl, rfl, ?_⟩
    · rw [parts, List.append_nil]
    · rw [parts, List.foldl_nil]
  | cons n rest =>
    let put : Shift := { k.put n false with due := rest }
    have step : Next k put := .deliver (show k.due = [] ++ n :: rest from parts)
    obtain ⟨k', run, due, puts, asked, fibers, post, commons⟩ := exists_delivered put
    refine ⟨k', run.head step, due, ?_, asked, fibers, post, ?_⟩
    · rw [puts, parts, show put.puts = k.puts ++ [n] from puts_put n, List.append_assoc]
      rfl
    · rw [commons, parts, List.foldl_cons]
      rfl
  termination_by k.due.length
  decreasing_by
    rw [parts]
    exact Nat.lt_succ_self _

/-! ## Tasks stay in order -/

/-- A worker has the task, or had it when it came down. -/
def Away (k : Shift) (t : TaskId) : Prop := k.post t ≠ .home

/-- Tasks are in order, and every fiber belongs to its task. -/
structure Sound (k : Shift) : Prop where
  orderly : k.commons.Orderly k.Away
  own : ∀ t, (k.fibers t).task = some t

theorem sound_initial : initial.Sound where
  orderly := Commons.orderly_empty.congr fun _ => iff_of_false (· rfl) id
  own _ := rfl

/-- A task that is driven comes home. -/
theorem away_home (u : TaskId) :
    Function.update k.post t .home u ≠ .home ↔ k.Away u ∧ u ≠ t :=
  update_ne_iff_and k.post t u .home

/-- A task that is away stays so. -/
theorem away_stay {post : Post} (gone : k.Away t) (stays : post ≠ .home) (u : TaskId) :
    Function.update k.post t post u ≠ .home ↔ k.Away u :=
  (update_ne_iff_or k.post stays).trans (or_iff_left_of_imp fun same => same ▸ gone)

theorem own_update (own : ∀ u, (k.fibers u).task = some u) {fiber : Fiber}
    (mine : fiber.task = some t) (u : TaskId) :
    (Function.update k.fibers t fiber u).task = some u := by
  rw [Function.update_apply]
  split
  · rename_i same
    rw [same]
    exact mine
  · exact own u

theorem task_perform (op : Op) (c : Commons) (f : Fiber) : (op.perform c f).2.2.task = f.task := by
  have listen : ∀ id, (f.listen id).task = f.task := fun id => by
    unfold Fiber.listen
    split <;> rfl
  cases op with
  | get box =>
    change (c.get f box).2.2.task = _
    unfold Commons.get
    repeat' split
    all_goals first
      | rfl
      | exact listen box
  | put box v =>
    change (c.put f box v).2.2.task = _
    unfold Commons.put
    repeat' split
    all_goals first
      | rfl
      | exact listen box
  | _ => rfl

theorem away_of_driven (driven : k.post t = .driven) : k.Away t := by
  intro home
  rw [driven] at home
  cases home

/-- Every step keeps tasks in order, and no task falls back. -/
theorem Sound.next (h : k.Sound) (step : Next k k') : k'.Sound ∧ k.commons.Later k'.commons := by
  cases step with
  | outside change =>
    obtain ⟨orderly, later⟩ := change.keeps h.orderly
    exact ⟨⟨orderly, h.own⟩, later⟩
  | @begin t queue next =>
    obtain ⟨orderly, later⟩ := Commons.keeps_stopListening { k.commons with queue }
      (k.fibers t) (h.orderly.pop next)
    exact ⟨⟨orderly.congr fun u => update_ne_iff_or k.post nofun, own_update h.own (h.own t)⟩,
      later.later⟩
  | @request t driven op =>
    obtain ⟨orderly, later⟩ := Commons.keeps_perform op k.commons (k.fibers t) h.orderly
    exact ⟨⟨orderly.congr (away_stay (away_of_driven driven) nofun),
      own_update h.own ((task_perform op k.commons (k.fibers t)).trans (h.own t))⟩, later.later⟩
  | @pause t r driven here why reason =>
    obtain ⟨orderly, later⟩ := h.orderly.paused (away_of_driven driven) away_home here why
    exact ⟨⟨orderly, own_update h.own (h.own t)⟩, later.later⟩
  | @finish t r driven here result reason =>
    obtain ⟨quiet, left⟩ := Commons.keeps_stopListening k.commons (k.fibers t) h.orderly
    obtain ⟨orderly, later⟩ := quiet.ended (away_of_driven driven) away_home here result
    exact ⟨⟨orderly, own_update h.own (h.own t)⟩, (left.trans later).later⟩
  | @fall t driven =>
    obtain ⟨orderly, later⟩ := Commons.keeps_stopListening k.commons (k.fibers t) h.orderly
    exact ⟨⟨orderly.congr (away_stay (away_of_driven driven) nofun), own_update h.own (h.own t)⟩,
      later.later⟩
  | @register t r e here unended box =>
    obtain ⟨orderly, later⟩ := Commons.keeps_informOnExit k.commons t e h.orderly
    rw [Commons.informOnExit_none here unended] at orderly later
    exact ⟨⟨orderly, h.own⟩, later.later⟩
  | late here given box => exact ⟨⟨h.orderly, h.own⟩, .refl _⟩
  | @deliver n before after parts =>
    obtain ⟨orderly, later⟩ := Commons.keeps_notifyExit k.commons n.message n.box h.orderly
    exact ⟨⟨orderly, h.own⟩, later.later⟩
  | stray n =>
    obtain ⟨orderly, later⟩ := Commons.keeps_notifyExit k.commons n.message n.box h.orderly
    exact ⟨⟨orderly, h.own⟩, later.later⟩
  | takeExit take =>
    obtain ⟨orderly, later⟩ := Commons.keeps_takeExit? take h.orderly
    exact ⟨⟨orderly, h.own⟩, later.later⟩

theorem Sound.reaches (h : k.Sound) (run : Reaches k k') :
    k'.Sound ∧ k.commons.Later k'.commons := by
  induction run with
  | refl => exact ⟨h, .refl _⟩
  | tail _ step ih =>
    obtain ⟨sound, later⟩ := ih
    obtain ⟨sound', later'⟩ := sound.next step
    exact ⟨sound', later.trans later'⟩

end Shift

end Resumable
