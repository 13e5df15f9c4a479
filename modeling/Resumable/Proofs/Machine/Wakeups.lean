import Resumable.Proofs.Machine.Waiting

/-!
# No wakeup is lost

`TaskPool.Scheduled` are the states of a scheduler whose tasks run machines, on any programs:
drives go one at a time from the queue, and between two drives outsiders put and get messages,
start tasks, ask for exit messages and let time go by.  The executor is not shut down, and no
drive breaks the rules.

When the queue is empty, every task that is paused for a message or for space has reason to
be, and its mailbox knows it (`TaskPool.Scheduled.waits_with_reason`).
-/

namespace Resumable

section

variable {c : Commons} {f : Fiber} {pending pending' : TaskId → Option MailboxId} {t : TaskId}

/-! ## Ends of drives -/

theorem Ended.finish (h : Ended pending t c f) (same : ∀ u, u ≠ t → pending' u = pending u)
    (result : TaskResult) : ((c.stopListening f).1.finish t result).Attended pending'
      (fun _ => False) none none := by
  obtain ⟨about, attended, mine⟩ := h.attended
  exact (attended.stopListening rfl h.task mine).finish same result

/-- A task that has given up the worker pauses, unless what it waits for has happened since. -/
theorem Leaving.conclude (h : Leaving pending t c f)
    (lasts : (f.reason.any (·.isDone)) = false) (same : ∀ u, u ≠ t → pending' u = pending u)
    (mine : pending' t = f.pending) :
    (TaskPool.conclude c t .pending f.reason).Attended pending' (fun _ => False) none none := by
  have rests := h.rests
  have saved := h.saved
  generalize f.reason = reason at lasts rests saved
  cases rests with
  | free attended why =>
    refine attended.conclude_roused lasts ?_ same
    rcases why with rfl | rfl | ⟨result, rfl⟩
    · rfl
    · rfl
    · cases lasts
  | @message id _ attended listens =>
    refine attended.conclude_waiting rfl ?_ same nofun
    obtain ⟨m, here⟩ := attended.known t id (Or.inl (Or.inr rfl))
    have tended := attended.tended id m here
    have consumer : m.consumer = some t := (tended.consumer t).2 (Or.inr rfl)
    have empty := tended.empty (by rw [consumer]; exact nofun)
    unfold Commons.holds
    simp [here, Mailbox.hasMessage, Ring.isEmpty, empty]
  | roused attended here filled =>
    refine attended.conclude_roused lasts ?_ same
    simp [Commons.holds, here, Mailbox.hasMessage, Ring.isEmpty, filled]
  | space attended listens here full =>
    refine attended.conclude_waiting rfl ?_ same fun id waits => ?_
    · simp [Commons.holds, here, Mailbox.hasSpace, Ring.hasSpace, full]
    · rw [mine]
      exact saved id (congrArg some waits)

/-- However a drive ends, its task plays no part but the one that it leaves for. -/
theorem Drives.ended {e : DriveEnd} (h : Drives pending t e c f) : Ended pending t c f := by
  cases e with
  | pending => exact Leaving.ended h
  | ready result => exact h
  | panicked message => exact h.elim

end

/-! ## States of a scheduler -/

namespace TaskPool

variable {s s' : TaskPool Machine} {t : TaskId} {fuel : Nat}

/-- The mailbox that a task puts a message into when it is driven. -/
def pending (s : TaskPool Machine) (t : TaskId) : Option MailboxId :=
  (s.engine? t).bind fun engine => engine.fiber.pending

/-- Tasks and mailboxes agree, and the fibers are those of the tasks. -/
structure Attended (s : TaskPool Machine) : Prop where
  engines : s.engines.length = s.commons.tasks.length
  fibers : ∀ t engine, s.engine? t = some engine →
    engine.fiber.task = some t ∧ engine.fiber.reason = none
  commons : s.commons.Attended s.pending (fun _ => False) none none

/-- A change to what tasks share, between two drives. -/
theorem Attended.between (h : s.Attended) {c : Commons}
    (attended : c.Attended s.pending (fun _ => False) none none)
    (length : c.tasks.length = s.commons.tasks.length) :
    ({ s with commons := c } : TaskPool Machine).Attended where
  engines := h.engines.trans length.symm
  fibers := h.fibers
  commons := attended

/-- A new task has a fiber of its own, with nothing saved. -/
theorem Attended.spawn (h : s.Attended) (m : Machine) : (s.spawn m).2.Attended := by
  have found := engine?_spawn h.engines m
  have none := engine?_spawn_new h.engines m
  refine ⟨?_, fun t engine here => ?_, ?_⟩
  · change (s.engines ++ [_]).length = (s.commons.tasks ++ [_]).length
    rw [List.length_append, List.length_append, h.engines]
    rfl
  · rw [found] at here
    split at here
    · cases here
      exact ⟨rfl, rfl⟩
    · exact h.fibers t engine here
  · have same : (s.spawn m).2.pending = s.pending := by
      funext t
      unfold pending
      rw [found]
      split
      · rename_i new
        rw [new, none]
        rfl
      · rfl
    rw [same]
    exact h.commons.addTask

/-- The end of a drive. -/
theorem Attended.endDrive {engine : Engine Machine} {e : DriveEnd} {scene : Scene Machine}
    (found : s.engine? t = some engine)
    (fibers : ∀ u engine, s.engine? u = some engine →
      engine.fiber.task = some u ∧ engine.fiber.reason = none)
    (length : s.engines.length = scene.commons.tasks.length)
    (ends : Drives s.pending t e scene.commons scene.fiber) :
    (s.endDrive t (.finished e) scene).2.Attended := by
  obtain ⟨fiber, engines, task, frames, reason⟩ := endDrive_engine s t e scene
  have healthy : ∀ message, e ≠ .panicked message := by
    rintro message rfl
    exact ends
  obtain ⟨-, evolves⟩ : _ ∧ scene.commons.Evolves (s.endDrive t (.finished e) scene).2.commons := by
    obtain ⟨about, attended, -⟩ := ends.ended.attended
    exact attended.orderly.endDrive rfl fun u =>
      iff_of_false (b := u = t ∧ u ≠ t) id fun gone => gone.2 gone.1
  have engine? : ∀ u, (s.endDrive t (.finished e) scene).2.engine? u =
      if u = t then some ⟨scene.body, fiber⟩ else s.engine? u := fun u => engine?_set found engines
  have other : ∀ u, u ≠ t → (s.endDrive t (.finished e) scene).2.pending u = s.pending u := by
    intro u ne
    unfold pending
    rw [engine?, if_neg ne]
  have mine : (s.endDrive t (.finished e) scene).2.pending t = scene.fiber.pending := by
    unfold pending
    rw [engine?, if_pos rfl]
    change fiber.pending = _
    unfold Fiber.pending
    rw [frames]
  refine ⟨?_, fun u engine' here => ?_, ?_⟩
  · rw [engines, List.length_set, length, evolves.length]
  · rw [engine?] at here
    split at here
    · rename_i same
      cases here
      rw [same]
      exact ⟨task.trans ends.ended.task, reason healthy⟩
    · exact fibers u engine' here
  · obtain ⟨result, same⟩ | ⟨rfl, lasts, same⟩ := Commons.endDrive_cases s t e scene
    · rw [same]
      exact ends.ended.finish other result
    · rw [same]
      exact Leaving.conclude ends lasts other mine

/-- A drive that comes to its end. -/
theorem Attended.step? (h : s.Attended)
    (step : s.step? (Machine.execute fuel) = some (t, .finished (), s')) : s'.Attended := by
  obtain ⟨rest, queue, same⟩ := step?_cases step
  have queued : t ∈ s.commons.queue := by
    rw [queue]
    exact List.mem_cons_self
  obtain ⟨r, here, -⟩ :=
    Commons.status?_eq_some_iff.1 ((h.commons.orderly.running_iff t).2 (Or.inl queued))
  obtain ⟨engine, found⟩ := engine?_of_task? (s := s.popped rest) h.engines here
  obtain ⟨task, reason⟩ := h.fibers t engine found
  have popped : (s.popped rest).commons.Attended s.pending (· = t) none engine.fiber.pending := by
    have popped := h.commons.pop queue
    rw [show s.pending t = engine.fiber.pending from congrArg (Option.bind · _) found] at popped
    exact popped
  rw [drive_some found] at same
  rcases out : (Machine.execute fuel engine.body).runTimed Commons.pace
    ((s.popped rest).opening engine) with ⟨ending, scene⟩
  rw [out] at same
  obtain ⟨quiet, beginning⟩ := Commons.keeps_stopListening _ engine.fiber popped.orderly
  obtain ⟨orderly, run⟩ := Commons.keeps_runTimed (Machine.execute fuel engine.body) Commons.pace
    ((s.popped rest).opening engine) quiet
  rw [out] at orderly run
  have secures : (Machine.execute fuel engine.body).Secures (Drives s.pending t)
      ((s.popped rest).opening engine).commons ((s.popped rest).opening engine).fiber := by
    unfold opening
    rw [Commons.stopListening_fiber]
    exact engine.body.secures_execute fuel (popped.stopListening rfl task nofun) task reason
  cases ending with
  | violated message => cases congrArg Prod.fst same
  | diverged => cases congrArg Prod.fst same
  | finished e =>
    have ends := secures.runTimed out
    obtain rfl : ((s.popped rest).endDrive t (.finished e) scene).2 = s' := congrArg Prod.snd same
    refine .endDrive found h.fibers ?_ ends
    exact h.engines.trans (run.length.trans beginning.length).symm

/-- The states between two drives of a scheduler whose tasks run machines. -/
inductive Scheduled : TaskPool Machine → Prop
  | empty : Scheduled .empty
  | spawn {s : TaskPool Machine} (before : Scheduled s) (m : Machine) : Scheduled (s.spawn m).2
  | addBox {s : TaskPool Machine} (before : Scheduled s) {m : Mailbox Value} (made : m.Made) :
    Scheduled { s with commons := (s.commons.addBox m).2 }
  | addExitBox {s : TaskPool Machine} (before : Scheduled s) {m : Mailbox ExitMessage}
    (made : m.Made) : Scheduled { s with commons := (s.commons.addExitBox m).2 }
  /-- An outsider starts a task, or tries to. -/
  | start {s : TaskPool Machine} (before : Scheduled s) (t : TaskId) :
    Scheduled { s with commons := (s.commons.start t).2 }
  | informOnExit {s : TaskPool Machine} (before : Scheduled s) (t : TaskId) (e : ExitBoxId) :
    Scheduled { s with commons := s.commons.informOnExit t e }
  | takeExit {s : TaskPool Machine} (before : Scheduled s) {e : ExitBoxId}
    {message : ExitMessage} {c : Commons} (take : s.commons.takeExit? e = some (message, c)) :
    Scheduled { s with commons := c }
  /-- An outsider takes a message. -/
  | getNb {s : TaskPool Machine} (before : Scheduled s) (id : MailboxId) :
    Scheduled { s with commons := (s.commons.getNb id).2 }
  /-- An outsider puts a message. -/
  | putNb {s : TaskPool Machine} (before : Scheduled s) (id : MailboxId) (v : Value) :
    Scheduled { s with commons := (s.commons.putNb id v).2 }
  | timerAfter {s : TaskPool Machine} (before : Scheduled s) (delay : Nat) (id : MailboxId)
    (v : Value) : Scheduled { s with commons := s.commons.timerAfter delay id v }
  /-- Time goes by, and timers fire. -/
  | advance {s : TaskPool Machine} (before : Scheduled s) (time : Nat) :
    Scheduled { s with commons := s.commons.advance time }
  /-- The first task of the queue is driven to the end of its drive. -/
  | drive {s s' : TaskPool Machine} (before : Scheduled s) {fuel : Nat} {t : TaskId}
    (step : s.step? (Machine.execute fuel) = some (t, .finished (), s')) : Scheduled s'

theorem attended_empty : (TaskPool.empty : TaskPool Machine).Attended where
  engines := rfl
  fibers t engine here := by
    unfold engine? at here
    split at here <;> cases here
  commons := by
    have waits : ∀ u why, ¬ Commons.empty.Waits u why := by
      rintro u why ⟨r, here, -⟩
      unfold Commons.task? at here
      split at here <;> cases here
    have role : ∀ u why, ¬ Commons.empty.Role none u why := by
      rintro u why (plays | ⟨⟨⟩⟩)
      exact waits u why plays
    refine ⟨Commons.orderly_empty, rfl, nofun, nofun, fun u id plays => ?_, fun u id plays => ?_,
      nofun⟩
    · exact (plays.elim (role u _) (role u _)).elim
    · exact (waits u _ plays).elim

/-- Tasks and mailboxes agree in every state between two drives. -/
theorem Scheduled.attended (h : Scheduled s) : s.Attended := by
  induction h with
  | empty => exact attended_empty
  | spawn _ m ih => exact ih.spawn m
  | addBox _ made ih => exact ih.between (ih.commons.addBox made) rfl
  | addExitBox _ made ih => exact ih.between (ih.commons.addExitBox made) rfl
  | start _ t ih =>
    exact ih.between (ih.commons.start t) (Commons.keeps_start _ t ih.commons.orderly).2.length
  | informOnExit _ t e ih =>
    exact ih.between (ih.commons.informOnExit t e)
      (Commons.keeps_informOnExit _ t e ih.commons.orderly).2.length
  | takeExit _ take ih =>
    exact ih.between (ih.commons.takeExit? take)
      (Commons.keeps_takeExit? take ih.commons.orderly).2.length
  | getNb _ id ih =>
    exact ih.between (ih.commons.getNb id) (Commons.keeps_getNb _ id ih.commons.orderly).2.length
  | putNb _ id v ih =>
    refine ih.between ?_ (Commons.keeps_putNb _ id v ih.commons.orderly).2.length
    obtain ⟨about, after, same | ⟨same, -⟩⟩ := ih.commons.putNb id v
    · exact same ▸ after
    · exact same ▸ after
  | timerAfter _ delay id v ih => exact ih.between (ih.commons.same rfl rfl rfl rfl rfl) rfl
  | advance _ time ih =>
    exact ih.between (ih.commons.advance time)
      (Commons.keeps_advance _ time ih.commons.orderly).2.length
  | drive _ step ih => exact ih.step? step

/-- **No wakeup is lost.**  When nothing is left to drive, a task that is paused for a message
is the consumer of an empty mailbox, and one that is paused for space stands once in the line
of a full one. -/
theorem Scheduled.waits_with_reason (h : Scheduled s) (idle : s.commons.queue = []) {r : TaskRecord}
    (here : s.commons.task? t = some r) (paused : r.status = .paused) :
    (∀ id, r.reason = some (.waitingForMessage id) →
      ∃ m, s.commons.box? id = some m ∧ m.ring.items = [] ∧ m.consumer = some t) ∧
    (∀ id, r.reason = some (.waitingForSpace id) →
      ∃ m, s.commons.box? id = some m ∧ m.ring.items.length = m.ring.max ∧
        m.producers.count t = 1) := by
  obtain attended := h.attended.commons
  have role : ∀ why, r.reason = some why → s.commons.Role none t why := fun why reason =>
    Or.inl ⟨r, here, paused, reason⟩
  refine ⟨fun id reason => ?_, fun id reason => ?_⟩
  · obtain ⟨m, found⟩ := attended.known t id (Or.inl (role _ reason))
    have tended := attended.tended id m found
    have consumer : m.consumer = some t := (tended.consumer t).2 (role _ reason)
    exact ⟨m, found, tended.empty (by rw [consumer]; exact nofun), consumer⟩
  · obtain ⟨m, found⟩ := attended.known t id (Or.inr (role _ reason))
    have tended := attended.tended id m found
    have waiting : t ∈ m.producers := (tended.producers t).2 (role _ reason)
    -- nobody in the queue, so no message is owed
    have owed : s.commons.owed s.pending none id = 0 := by
      unfold Commons.owed
      rw [idle]
      rfl
    have room := tended.room (List.ne_nil_of_mem waiting)
    rw [owed] at room
    have full := tended.sized.length_le_max
    exact ⟨m, found, Nat.le_antisymm full room, List.count_eq_one_of_mem tended.nodup waiting⟩

/-! ## Two tasks that wait -/

deriving instance DecidableEq for PauseReason

/-- A drive that comes to its end, by its parts. -/
theorem Scheduled.driven (before : Scheduled s) {rest : List TaskId}
    (queue : s.commons.queue = t :: rest)
    (ends : ((s.popped rest).drive (Machine.execute fuel) t).1 = .finished ()) :
    Scheduled ((s.popped rest).drive (Machine.execute fuel) t).2 := by
  refine .drive (t := t) before (?_ : s.step? (Machine.execute fuel) = _)
  unfold step?
  rw [queue, ← ends]
  rfl

/-- A full mailbox and an empty one, a task that puts into the first and one that gets from the
second, both in the queue. -/
def eager : TaskPool Machine :=
  let boxes : TaskPool Machine := { empty with
    commons := ((Commons.empty.addBox (.bounded 1)).2.addBox .unbounded).2 }
  let filled := { boxes with commons := (boxes.commons.putNb ⟨0⟩ .unit).2 }
  let (_, putter) := filled.spawn (.ofEntry ⟨[]⟩ Primitive.put.procId [.mailbox ⟨0⟩, .unit])
  let (_, getter) := putter.spawn (.ofEntry ⟨[]⟩ Primitive.get.procId [.mailbox ⟨1⟩])
  { getter with commons := ((getter.commons.start ⟨1⟩).2.start ⟨2⟩).2 }

/-- The one that puts was driven. -/
def halfway : TaskPool Machine := ((eager.popped [⟨2⟩]).drive (Machine.execute 5) ⟨1⟩).2

/-- Both were driven. -/
def asleep : TaskPool Machine := ((halfway.popped []).drive (Machine.execute 5) ⟨2⟩).2

theorem scheduled_asleep : Scheduled asleep := by
  have boxes := (Scheduled.empty.addBox (.bounded (show 1 ≤ Ring.largest by decide))).addBox
    .unbounded
  have eager : Scheduled eager :=
    ((((boxes.putNb ⟨0⟩ .unit).spawn _).spawn _).start ⟨1⟩).start ⟨2⟩
  have putter : ((TaskPool.eager.popped [⟨2⟩]).drive (Machine.execute 5) ⟨1⟩).1 = .finished () := by
    decide +kernel
  have getter : ((halfway.popped []).drive (Machine.execute 5) ⟨2⟩).1 = .finished () := by
    decide +kernel
  have waits : Scheduled halfway := eager.driven (by decide +kernel) putter
  exact waits.driven (by decide +kernel) getter

theorem asleep_waits_with_reason : asleep.commons.queue = [] ∧
    asleep.commons.status? ⟨1⟩ = some .paused ∧ asleep.commons.status? ⟨2⟩ = some .paused ∧
    (∃ m, asleep.commons.box? ⟨0⟩ = some m ∧ m.ring.items.length = m.ring.max ∧
      m.producers.count ⟨1⟩ = 1) ∧
    ∃ m, asleep.commons.box? ⟨1⟩ = some m ∧ m.ring.items = [] ∧ m.consumer = some ⟨2⟩ := by
  have idle : asleep.commons.queue = [] := by decide +kernel
  have putter : asleep.commons.status? ⟨1⟩ = some .paused := by decide +kernel
  have getter : asleep.commons.status? ⟨2⟩ = some .paused := by decide +kernel
  have space : (asleep.commons.task? ⟨1⟩).bind (·.reason) = some (.waitingForSpace ⟨0⟩) := by
    decide +kernel
  have message : (asleep.commons.task? ⟨2⟩).bind (·.reason) = some (.waitingForMessage ⟨1⟩) := by
    decide +kernel
  obtain ⟨r₁, here₁, paused₁⟩ := Commons.status?_eq_some_iff.1 putter
  obtain ⟨r₂, here₂, paused₂⟩ := Commons.status?_eq_some_iff.1 getter
  rw [here₁] at space
  rw [here₂] at message
  exact ⟨idle, putter, getter,
    (scheduled_asleep.waits_with_reason idle here₁ paused₁).2 _ space,
    (scheduled_asleep.waits_with_reason idle here₂ paused₂).1 _ message⟩

end TaskPool

end Resumable
