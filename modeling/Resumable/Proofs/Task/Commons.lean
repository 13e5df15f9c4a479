import Resumable.Proofs.Mailbox.Bounds
import Resumable.Task.Pool

/-!
# What an operation can change

What tasks share has many parts, and most operations change few of them.  Starting and
resuming a task change the records of the tasks and the queue (`start_eq`,
`resume_eq`), so mailboxes stay as they are (`boxes_start`, `boxes_resume`).

A mailbox and a record are found where they were put (`box?_setBox`, `task?_setTask`).

For every operation on tasks and mailboxes there is one lemma that lists all that it can do
(`start_cases`, `resume_cases`, `tryPut_cases`, `put_cases`, `getNb_cases`, `get_cases`).
-/

namespace Resumable

namespace Commons

variable {c : Commons} {t u : TaskId} {r r₀ : TaskRecord} {id other : MailboxId}
  {m m₀ : Mailbox Value}

/-! ## Look-ups -/

theorem box?_setBox_ne (ne : other ≠ id) : (c.setBox id m).box? other = c.box? other := by
  unfold box? setBox
  rw [List.getElem?_set_ne]
  intro index
  cases id
  cases other
  exact ne (congrArg MailboxId.mk index.symm)

theorem box?_setBox (here : c.box? id = some m₀) :
    (c.setBox id m).box? other = if other = id then some m else c.box? other := by
  split
  · rename_i same
    obtain ⟨lt, -⟩ := List.getElem?_eq_some_iff.1 here
    rw [same]
    exact List.getElem?_set_self lt
  · rename_i ne
    exact box?_setBox_ne ne

theorem task?_setTask (here : c.task? t = some r₀) :
    (c.setTask t r).task? u = if u = t then some r else c.task? u := by
  unfold task? at here
  split at here
  · cases here
  · rename_i positive
    obtain ⟨lt, -⟩ := List.getElem?_eq_some_iff.1 here
    unfold task? setTask
    by_cases same : u = t
    · rw [if_pos same, same, if_neg positive, List.getElem?_set_self lt]
    · rw [if_neg same]
      split
      · rfl
      · rw [List.getElem?_set_ne]
        intro index
        cases t
        cases u
        exact same (congrArg TaskId.mk (by simp only at *; omega))

theorem setTask_self (here : c.task? t = some r) : c.setTask t r = c := by
  unfold task? at here
  split at here
  · cases here
  · obtain ⟨lt, found⟩ := List.getElem?_eq_some_iff.1 here
    unfold setTask
    rw [← found, List.set_getElem_self]

/-! ## Starting and resuming -/

/-- A task stands at the end of the queue with a new record. -/
def queued (c : Commons) (t : TaskId) (r : TaskRecord) : Commons :=
  { c.setTask t r with queue := c.queue ++ [t] }

@[simp] theorem queue_queued : (c.queued t r).queue = c.queue ++ [t] := rfl

/-- Whether the executor takes tasks. -/
def accepts (c : Commons) : Bool := !(c.closed || c.refusing)

theorem schedule?_setTask : (c.setTask t r).schedule? t =
    if c.accepts then some (c.queued t r) else none := by
  unfold schedule? accepts
  change (if c.closed || c.refusing then none else some (c.queued t r)) = _
  cases c.closed || c.refusing <;> rfl

theorem schedule?_eq_some_iff {c' : Commons} :
    c.schedule? t = some c' ↔ c.accepts = true ∧ { c with queue := c.queue ++ [t] } = c' := by
  unfold schedule? accepts
  cases c.closed || c.refusing <;> simp

/-- A start hands a fresh task to the executor, or fails. -/
theorem start_cases (c : Commons) (t : TaskId) :
    (∃ r, c.task? t = some r ∧ r.started = false ∧ c.accepts = true ∧
      c.start t = (.ok (),
        c.queued t { r with started := true, running := true, attached := true })) ∨
    (∃ e, c.start t = (.error e, c)) ∨
    ∃ r, c.task? t = some r ∧ r.started = false ∧ c.accepts = false ∧
      c.start t = (.error .executorShutdown,
        c.setTask t { r with started := false, running := false, attached := false }) := by
  unfold start
  cases shut : c.closed with
  | true => exact Or.inr (Or.inl ⟨_, rfl⟩)
  | false =>
    cases found : c.task? t with
    | none => exact Or.inr (Or.inl ⟨_, rfl⟩)
    | some r =>
      cases started : r.started with
      | true => exact Or.inr (Or.inl ⟨.alreadyStarted t, by simp [started]⟩)
      | false =>
        cases accepts : c.accepts with
        | true =>
          refine Or.inl ⟨r, rfl, started, rfl, ?_⟩
          simp [started, schedule?_setTask, accepts]
        | false =>
          refine Or.inr (Or.inr ⟨r, rfl, started, rfl, ?_⟩)
          simp [started, schedule?_setTask, accepts]

/-- A resumed task goes to the end of the queue, if it is paused and the executor takes
it. -/
theorem resume_cases (c : Commons) (t : TaskId) :
    (∃ r, c.task? t = some r ∧ r.status = .paused ∧ r.attached = true ∧ c.accepts = true ∧
      c.resume t = c.queued t { r with running := true }) ∨
    c.resume t = c ∨
    ∃ r, c.task? t = some r ∧ r.status = .paused ∧ r.attached = false ∧
      c.resume t = c.setTask t { r with running := true } := by
  unfold resume
  cases found : c.task? t with
  | none => exact Or.inr (Or.inl rfl)
  | some r =>
    simp only
    by_cases idle : (r.done || !r.started || r.running) = true
    · rw [if_pos idle]
      exact Or.inr (Or.inl rfl)
    · have paused : r.status = .paused := by
        simp only [Bool.or_eq_true, Bool.not_eq_true', not_or, Bool.not_eq_true,
          Bool.not_eq_false] at idle
        simp [TaskRecord.status, idle]
      rw [if_neg idle, schedule?_setTask]
      cases attached : r.attached with
      | false => exact Or.inr (Or.inr ⟨r, rfl, paused, attached, by simp [attached]⟩)
      | true =>
        cases accepts : c.accepts with
        | true => exact Or.inl ⟨r, rfl, paused, attached, rfl, by simp [attached]⟩
        | false => exact Or.inr (Or.inl (by simp))

/-- A start changes nothing but the records and the queue. -/
theorem start_eq (c : Commons) (t : TaskId) :
    ∃ tasks queue, (c.start t).2 = { c with tasks, queue } := by
  obtain ⟨r, -, -, -, same⟩ | ⟨e, same⟩ | ⟨r, -, -, -, same⟩ := start_cases c t
  · exact ⟨_, _, congrArg Prod.snd same⟩
  · exact ⟨_, _, congrArg Prod.snd same⟩
  · exact ⟨_, _, congrArg Prod.snd same⟩

/-- Nor does a resumption. -/
theorem resume_eq (c : Commons) (t : TaskId) :
    ∃ tasks queue, c.resume t = { c with tasks, queue } := by
  obtain ⟨r, -, -, -, -, same⟩ | same | ⟨r, -, -, -, same⟩ := resume_cases c t
  · exact ⟨_, _, same⟩
  · exact ⟨_, _, same⟩
  · exact ⟨_, _, same⟩

/-! ## Mailboxes -/

@[simp] theorem boxes_start : (c.start t).2.boxes = c.boxes := by
  obtain ⟨tasks, queue, same⟩ := start_eq c t
  rw [same]

@[simp] theorem boxes_startFrom {current : Option TaskId} :
    (c.startFrom current t).2.boxes = c.boxes := by
  unfold startFrom
  split
  · split
    · exact boxes_start
    · rfl
  · rfl

@[simp] theorem boxes_resume : (c.resume t).boxes = c.boxes := by
  obtain ⟨tasks, queue, same⟩ := resume_eq c t
  rw [same]

@[simp] theorem boxes_wake {woken : Option TaskId} : (c.wake woken).boxes = c.boxes := by
  cases woken with
  | none => rfl
  | some t => exact boxes_resume

theorem box?_congr {c' : Commons} (same : c'.boxes = c.boxes) : c'.box? id = c.box? id := by
  unfold box?
  rw [same]

/-- A message is accepted and wakes the consumer, or it is handed back because the mailbox
is full. -/
theorem tryPut_cases (here : c.box? id = some m) (sized : m.ring.Sized) (v : Value) :
    (∃ m', m.ring.items.length < m.ring.max ∧ m.give? v = some (m.consumer, m') ∧
      c.tryPut id v = (.ok (), (c.setBox id m').wake m.consumer)) ∨
    m.ring.items.length = m.ring.max ∧ c.tryPut id v = (.error v, c) := by
  have length := sized.length_le_max
  unfold tryPut
  rw [here, Option.bind_some]
  cases give : m.give? v with
  | none => exact Or.inr ⟨(Mailbox.give?_eq_none_iff sized).1 give, rfl⟩
  | some given =>
    obtain ⟨woken, m'⟩ := given
    obtain ⟨rfl, -⟩ := Mailbox.give?_eq_some sized give
    have space := mt (Mailbox.give?_eq_none_iff (a := v) sized).2 (by simp [give])
    exact Or.inl ⟨m', by omega, rfl, rfl⟩

theorem putNb_eq (c : Commons) (id : MailboxId) (v : Value) :
    c.putNb id v = ((c.tryPut id v).1.toBool, (c.tryPut id v).2) := by
  unfold putNb tryPut
  split <;> rfl

/-- The oldest message is taken and wakes the first producer, or there is none. -/
theorem getNb_cases (here : c.box? id = some m) (sized : m.ring.Sized) :
    (∃ v rest, m.ring.items = v :: rest ∧
      c.getNb id = (some v, (c.setBox id { m with
        ring := { m.ring with items := rest }, producers := m.producers.tail }).wake
          m.producers.head?)) ∨
    m.ring.items = [] ∧ c.getNb id = (none, c) := by
  unfold getNb
  rw [here, Option.bind_some]
  cases take : m.take? with
  | none => exact Or.inr ⟨Mailbox.take?_eq_none_iff.1 take, rfl⟩
  | some taken =>
    obtain ⟨v, woken, m'⟩ := taken
    obtain ⟨rest, items, rfl, rfl, -⟩ := Mailbox.take?_eq_some sized take
    exact Or.inl ⟨v, rest, items, rfl⟩

/-- A fiber takes the oldest message, or its task becomes the consumer of the empty
mailbox, or it may not wait. -/
theorem get_cases (here : c.box? id = some m) (sized : m.ring.Sized) (f : Fiber) :
    (∃ v rest m', m.ring.items = v :: rest ∧ m'.ring = { m.ring with items := rest } ∧
      m'.producers = m.producers.tail ∧ (m'.consumer = m.consumer ∨ m'.consumer = none) ∧
      c.get f id = (.ok (some v), (c.setBox id m').wake m.producers.head?, f)) ∨
    (∃ t, m.ring.items = [] ∧ f.task = some t ∧ (m.consumer = none ∨ m.consumer = some t) ∧
      c.get f id =
        (.ok none, c.setBox id (m.await t), (f.listen id).pause (.waitingForMessage id))) ∨
    ∃ e, m.ring.items = [] ∧ c.get f id = (.error e, c, f) := by
  unfold get
  simp only [here]
  cases take : m.take? with
  | some taken =>
    obtain ⟨v, woken, m'⟩ := taken
    obtain ⟨rest, items, rfl, rfl, -⟩ := Mailbox.take?_eq_some sized take
    refine Or.inl ⟨v, rest, _, items, ?_, ?_, ?_, rfl⟩
    all_goals
      cases f.task with
      | none => simp
      | some t =>
        simp only [Mailbox.removeConsumer]
        split <;> simp
  | none =>
    have items := Mailbox.take?_eq_none_iff.1 take
    refine Or.inr ?_
    cases task : f.task with
    | none => exact Or.inr ⟨_, items, rfl⟩
    | some t =>
      cases consumer : m.consumer with
      | none => exact Or.inl ⟨t, items, rfl, Or.inl rfl, rfl⟩
      | some other =>
        by_cases same : other = t
        · exact Or.inl ⟨t, items, rfl, Or.inr (by rw [same]), by simp [same]⟩
        · exact Or.inr ⟨.secondConsumer t other, items, by simp [same]⟩

/-- A fiber adds a message, or its task joins the line of the producers of the full
mailbox, or it may not wait. -/
theorem put_cases (here : c.box? id = some m) (sized : m.ring.Sized) (f : Fiber) (v : Value) :
    (∃ m' m'', m.ring.items.length < m.ring.max ∧ m.give? v = some (m.consumer, m') ∧
      m'' = { m' with producers := m.producers.filter fun u => f.task ≠ some u } ∧
      c.put f id v = (.ok true, (c.setBox id m'').wake m.consumer, f)) ∨
    (∃ t, m.ring.items.length = m.ring.max ∧ f.task = some t ∧
      c.put f id v =
        (.ok false, c.setBox id (m.enqueue t), (f.listen id).pause (.waitingForSpace id))) ∨
    m.ring.items.length = m.ring.max ∧ f.task = none ∧
      c.put f id v = (.error .putOutsideTask, c, f) := by
  have length := sized.length_le_max
  unfold put
  simp only [here]
  cases give : m.give? v with
  | some given =>
    obtain ⟨woken, m'⟩ := given
    obtain ⟨rfl, same, -⟩ := Mailbox.give?_eq_some sized give
    have space := mt (Mailbox.give?_eq_none_iff (a := v) sized).2 (by simp [give])
    refine Or.inl ⟨m', _, by omega, rfl, ?_, rfl⟩
    rw [same]
    cases f.task with
    | none =>
      have all : m.producers.filter (fun _ => true) = m.producers := List.filter_eq_self.2 (by simp)
      simp [all]
    | some t =>
      simp only [Mailbox.removeProducer, ne_eq, Option.some.injEq, eq_comm (a := t)]
  | none =>
    have full := (Mailbox.give?_eq_none_iff sized).1 give
    refine Or.inr ?_
    cases task : f.task with
    | none => exact Or.inr ⟨full, rfl, rfl⟩
    | some t => exact Or.inl ⟨t, full, rfl, rfl⟩

/-! ## Requests that break the rules -/

/-- A request that breaks the rules changes nothing. -/
theorem perform_error {op : Op} {c c' : Commons} {f f' : Fiber} {e : Violation}
    (answer : op.perform c f = (.error e, c', f')) : c' = c ∧ f' = f := by
  cases op with
  | get box =>
    change c.get f box = _ at answer
    unfold get at answer
    repeat' split at answer
    all_goals
      cases answer
      try exact ⟨rfl, rfl⟩
  | put box v =>
    change c.put f box v = _ at answer
    unfold put at answer
    repeat' split at answer
    all_goals
      cases answer
      try exact ⟨rfl, rfl⟩
  | _ => cases answer

/-! ## The end of a drive -/

@[simp] theorem boxes_notifyExit {message : ExitMessage} {e : ExitBoxId} :
    (c.notifyExit message e).boxes = c.boxes := by
  unfold notifyExit
  split
  · exact boxes_wake
  · rfl

theorem boxes_takeExit? {c' : Commons} {message : ExitMessage} {e : ExitBoxId}
    (take : c.takeExit? e = some (message, c')) : c'.boxes = c.boxes := by
  unfold takeExit? at take
  split at take
  · cases take
    exact boxes_wake
  · cases take

@[simp] theorem boxes_finish {result : TaskResult} : (c.finish t result).boxes = c.boxes := by
  unfold finish
  split
  · rfl
  · refine List.foldlRecOn (motive := fun c' : Commons => c'.boxes = c.boxes) _ _ rfl ?_
    exact fun c' before e _ => boxes_notifyExit.trans before

/-- A task that pauses has a reason on its record. -/
def paused (c : Commons) (t : TaskId) (r : TaskRecord) (reason : PauseReason) : Commons :=
  c.setTask t { r with reason := some reason, running := false }

/-- A task that pauses goes on at once if its reason does not hold any more. -/
theorem conclude_pending (here : c.task? t = some r) {reason : Option PauseReason}
    (lasts : (reason.any (·.isDone)) = false) :
    TaskPool.conclude c t .pending reason =
      if (c.paused t r (reason.getD .yielded)).holds (reason.getD .yielded) then
        c.paused t r (reason.getD .yielded)
      else (c.paused t r (reason.getD .yielded)).resume t := by
  unfold TaskPool.conclude
  rcases reason with - | (- | - | - | result | -)
  case some.done => cases lasts
  all_goals
    simp only [here]
    rfl

/-- Where a task waits is known from its fiber, whatever the reason there. -/
theorem stopListening_reason (c : Commons) (f : Fiber) (reason : Option PauseReason) :
    (c.stopListening { f with reason }).1 = (c.stopListening f).1 := by
  unfold stopListening
  cases f.task <;> rfl

theorem stopListening_fiber (c : Commons) (f : Fiber) :
    (c.stopListening f).2 = { f with listening := [] } := by
  unfold stopListening
  cases f.task <;> rfl

/-- After a drive that comes to its end the task is done and waits nowhere, or it pauses for
the reason that the fiber gives. -/
theorem endDrive_cases {σ : Type} (s : TaskPool σ) (t : TaskId) (e : DriveEnd) (scene : Scene σ) :
    (∃ result, (s.endDrive t (.finished e) scene).2.commons =
      (scene.commons.stopListening scene.fiber).1.finish t result) ∨
    e = .pending ∧ (scene.fiber.reason.any (·.isDone)) = false ∧
      (s.endDrive t (.finished e) scene).2.commons =
        TaskPool.conclude scene.commons t .pending scene.fiber.reason := by
  cases e with
  | panicked message => exact Or.inl ⟨_, rfl⟩
  | ready result =>
    rw [← stopListening_reason _ _ none]
    exact Or.inl ⟨result, rfl⟩
  | pending =>
    rw [← stopListening_reason _ _ none]
    unfold TaskPool.endDrive TaskPool.takeReason Fiber.takeReason
    cases reason : scene.fiber.reason with
    | none => exact Or.inr ⟨rfl, rfl, rfl⟩
    | some why =>
      cases why with
      | done result => exact Or.inl ⟨result, rfl⟩
      | _ => exact Or.inr ⟨rfl, rfl, rfl⟩

@[simp] theorem boxes_conclude {e : DriveEnd} {reason : Option PauseReason} :
    (TaskPool.conclude c t e reason).boxes = c.boxes := by
  unfold TaskPool.conclude
  split
  · exact boxes_finish
  · exact boxes_finish
  · exact boxes_finish
  · split
    · rfl
    · dsimp only
      split
      · rfl
      · exact boxes_resume

/-! ## Steps -/

/-- The clock moves on before the timers fire. -/
theorem advance_eq (c : Commons) (time : Nat) :
    c.advance time = (c.timers.popExpired (c.now.max time)).1.foldl
      (fun c e => (c.putNb e.payload.1 e.payload.2).2)
      { c with now := c.now.max time, timers := (c.timers.popExpired (c.now.max time)).2 } :=
  rfl

end Commons

namespace TaskPool

variable {σ : Type} {exec : σ → Drive σ DriveEnd} {s s' : TaskPool σ} {t : TaskId}

/-- The scene in which the drive of a task begins: it does not wait anywhere any more. -/
def opening (s : TaskPool σ) (engine : Engine σ) : Scene σ :=
  { commons := (s.commons.stopListening engine.fiber).1
    fiber := (s.commons.stopListening engine.fiber).2
    body := engine.body }

theorem beginDrive?_eq_some_iff {rest : Drive σ DriveEnd} {scene : Scene σ} :
    s.beginDrive? exec t = some (rest, scene) ↔
      ∃ engine, s.engine? t = some engine ∧ exec engine.body = rest ∧ s.opening engine = scene := by
  unfold beginDrive?
  rw [Option.map_eq_some_iff]
  exact exists_congr fun engine => and_congr_right fun _ => Prod.mk.injEq .. ▸ Iff.rfl

theorem drive_none (missing : s.engine? t = none) : s.drive exec t = (.finished (), s) := by
  unfold drive beginDrive?
  rw [missing]
  rfl

theorem drive_some {engine : Engine σ} (found : s.engine? t = some engine) :
    s.drive exec t =
      s.endDrive t ((exec engine.body).runTimed Commons.pace (s.opening engine)).1
        ((exec engine.body).runTimed Commons.pace (s.opening engine)).2 := by
  unfold drive beginDrive?
  rw [found]
  rfl

/-- A task with a record has an engine. -/
theorem engine?_of_task? (engines : s.engines.length = s.commons.tasks.length) {r : TaskRecord}
    (here : s.commons.task? t = some r) : ∃ engine, s.engine? t = some engine := by
  unfold Commons.task? at here
  unfold engine?
  split at here
  · cases here
  · rename_i positive
    obtain ⟨lt, -⟩ := List.getElem?_eq_some_iff.1 here
    rw [if_neg positive]
    exact ⟨_, List.getElem?_eq_getElem (by rw [engines]; exact lt)⟩

theorem engine?_set {engine engine' : Engine σ} {u : TaskId} (here : s.engine? t = some engine)
    (engines : s'.engines = s.engines.set (t.number - 1) engine') :
    s'.engine? u = if u = t then some engine' else s.engine? u := by
  unfold engine? at here ⊢
  rw [engines]
  split at here
  · cases here
  · rename_i positive
    obtain ⟨lt, -⟩ := List.getElem?_eq_some_iff.1 here
    by_cases same : u = t
    · rw [if_pos same, same, if_neg positive, List.getElem?_set_self lt]
    · rw [if_neg same]
      split
      · rfl
      · rw [List.getElem?_set_ne]
        intro index
        cases t
        cases u
        exact same (congrArg TaskId.mk (by simp only at *; omega))

/-- A new task has an engine of its own. -/
theorem engine?_spawn (engines : s.engines.length = s.commons.tasks.length) (body : σ)
    (u : TaskId) : (s.spawn body).2.engine? u =
      if u = (s.spawn body).1 then some ⟨body, .ofTask (some u)⟩ else s.engine? u := by
  obtain ⟨number⟩ := u
  have new : (s.spawn body).1 = ⟨s.engines.length + 1⟩ := by
    rw [engines]
    rfl
  have added : (s.spawn body).2.engines = s.engines ++ [⟨body, .ofTask (some (s.spawn body).1)⟩] :=
    rfl
  rw [new] at added ⊢
  unfold engine?
  rw [added]
  simp only [TaskId.mk.injEq]
  by_cases zero : number = 0
  · subst zero
    rfl
  · rw [if_neg zero, if_neg zero, List.getElem?_append]
    split_ifs with lt last last
    · omega
    · rfl
    · subst last
      simp
    · rw [List.getElem?_eq_none (by simp; omega), List.getElem?_eq_none (by omega)]

/-- No task has the number of a new one. -/
theorem engine?_spawn_new (engines : s.engines.length = s.commons.tasks.length) (body : σ) :
    s.engine? (s.spawn body).1 = none := by
  have new : (s.spawn body).1 = ⟨s.engines.length + 1⟩ := by
    rw [engines]
    rfl
  rw [new]
  exact List.getElem?_eq_none (Nat.le_refl _)

/-- The engine of a task after a drive: the fiber keeps its frames, and the reason is taken
from it unless the body broke down. -/
theorem endDrive_engine (s : TaskPool σ) (t : TaskId) (e : DriveEnd) (scene : Scene σ) :
    ∃ fiber, (s.endDrive t (.finished e) scene).2.engines =
        s.engines.set (t.number - 1) { body := scene.body, fiber } ∧
      fiber.task = scene.fiber.task ∧ fiber.frames = scene.fiber.frames ∧
      ((∀ message, e ≠ .panicked message) → fiber.reason = none) := by
  let engines (fiber : Fiber) := s.engines.set (t.number - 1) { body := scene.body, fiber }
  have stops : ∀ f : Fiber, engines (scene.commons.stopListening f).2 =
      engines { f with listening := [] } := fun f =>
    congrArg engines (Commons.stopListening_fiber scene.commons f)
  cases e with
  | panicked message => exact ⟨_, stops _, rfl, rfl, fun ne => absurd rfl (ne message)⟩
  | ready result => exact ⟨_, stops { scene.fiber with reason := none }, rfl, rfl, fun _ => rfl⟩
  | pending =>
    unfold endDrive takeReason
    simp only
    cases scene.fiber.takeReason.1.any (·.isDone) with
    | true => exact ⟨_, stops { scene.fiber with reason := none }, rfl, rfl, fun _ => rfl⟩
    | false => exact ⟨_, rfl, rfl, rfl, fun _ => rfl⟩

/-- A pool with another queue. -/
def popped (s : TaskPool σ) (queue : List TaskId) : TaskPool σ :=
  { s with commons := { s.commons with queue } }

/-- A step drives the first task of the queue. -/
theorem step?_cases {ending : Ending Unit} (step : s.step? exec = some (t, ending, s')) :
    ∃ rest, s.commons.queue = t :: rest ∧ drive exec (s.popped rest) t = (ending, s') := by
  unfold step? at step
  split at step
  · cases step
  · rename_i next rest queue
    obtain ⟨rfl, same⟩ := Prod.mk.inj (Option.some.inj step)
    exact ⟨rest, queue, same⟩

end TaskPool

end Resumable
