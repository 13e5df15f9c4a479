import Resumable.Machine.Body
import Resumable.Proofs.Task.Attendance
import Resumable.Proofs.Task.Drive

/-!
# A machine that has to wait

What a drive of a machine does to the agreement between tasks and mailboxes.  As long as the
machine works its task plays no part at any mailbox (`Calm`).  When a primitive has to wait,
the task begins to play one, and from then on the drive only saves frames (`Leaving`):
whatever the program is, nothing is put or taken any more, timers apart.

A drive that begins with a message owed puts it first.
-/

namespace Resumable

/-- The mailbox that a saved frame puts a message into when it is entered again. -/
def Frame.retries? (frame : Frame) : Option MailboxId :=
  match Primitive.ofProc? frame.proc, frame.slots with
  | some .put, .mailbox id :: _ :: _ => some id
  | _, _ => none

/-- The mailbox that a suspended fiber puts a message into when it goes on. -/
def Fiber.pending (f : Fiber) : Option MailboxId := f.frames.head?.bind Frame.retries?

namespace Fiber

variable (f : Fiber) (id : MailboxId)

variable {id} in
theorem mem_listen : id ∈ (f.listen id).listening := by
  unfold listen
  split
  · assumption
  · simp

theorem frames_listen : (f.listen id).frames = f.frames := by
  unfold listen
  split <;> rfl

theorem task_listen : (f.listen id).task = f.task := by
  unfold listen
  split <;> rfl

end Fiber

/-- What tasks share when the drive of a task has nothing left to do, with the reason to pause
and the mailboxes that hold the task. -/
inductive Commons.Rests (c : Commons) (pending : TaskId → Option MailboxId) (t : TaskId) :
    Option PauseReason → List MailboxId → Prop
  | free {reason : Option PauseReason} {listening : List MailboxId}
    (attended : c.Attended pending (· = t) none none)
    (why : reason = none ∨ reason = some .yielded ∨ ∃ result, reason = some (.done result)) :
    Rests c pending t reason listening
  | message {id : MailboxId} {listening : List MailboxId}
    (attended : c.Attended pending (· = t) (some (t, .waitingForMessage id)) none)
    (listens : id ∈ listening) : Rests c pending t (some (.waitingForMessage id)) listening
  /-- A message has arrived since the mailbox was found empty. -/
  | roused {id : MailboxId} {listening : List MailboxId} {m : Mailbox Value}
    (attended : c.Attended pending (· = t) none none) (here : c.box? id = some m)
    (filled : m.ring.items ≠ []) : Rests c pending t (some (.waitingForMessage id)) listening
  | space {id : MailboxId} {listening : List MailboxId} {m : Mailbox Value}
    (attended : c.Attended pending (· = t) (some (t, .waitingForSpace id)) none)
    (listens : id ∈ listening) (here : c.box? id = some m)
    (full : m.ring.items.length = m.ring.max) :
    Rests c pending t (some (.waitingForSpace id)) listening

/-- The machine works. -/
structure Calm (pending : TaskId → Option MailboxId) (t : TaskId) (debt : Option MailboxId)
    (c : Commons) (f : Fiber) : Prop where
  attended : c.Attended pending (· = t) none debt
  task : f.task = some t
  frames : f.frames = []
  reason : f.reason = none

/-- The machine has given up the worker. -/
structure Leaving (pending : TaskId → Option MailboxId) (t : TaskId) (c : Commons) (f : Fiber) :
    Prop where
  task : f.task = some t
  rests : c.Rests pending t f.reason f.listening
  /-- A message that was refused is put again. -/
  saved : ∀ id, f.reason = some (.waitingForSpace id) → f.pending = some id

/-- The task of a drive plays no part, or its fiber knows where. -/
structure Ended (pending : TaskId → Option MailboxId) (t : TaskId) (c : Commons) (f : Fiber) :
    Prop where
  task : f.task = some t
  attended : ∃ about, c.Attended pending (· = t) about none ∧
    ∀ u why, about = some (u, why) → u = t ∧
      ∃ id ∈ f.listening, why = .waitingForMessage id ∨ why = .waitingForSpace id

section

variable {c c' c₀ : Commons} {f f' : Fiber} {pending : TaskId → Option MailboxId} {t : TaskId}
  {debt : Option MailboxId} {reason : Option PauseReason} {listening : List MailboxId}
  {id : MailboxId} {v : Value} {σ : Type}

/-! ## While time goes by -/

namespace Commons

/-- A put leaves the messages there are where they are. -/
theorem content_putNb {m : Mailbox Value} (here : c.box? id = some m) (sized : m.ring.Sized)
    (box : MailboxId) (v : Value) : ∃ m', (c.putNb box v).2.box? id = some m' ∧
      (∃ more, m'.ring.items = m.ring.items ++ more) ∧ m'.ring.max = m.ring.max ∧
      m'.ring.Sized := by
  obtain ⟨m', there, carries⟩ := conveys_perform here sized
    (show (Op.putNb box v).perform c .detached = (.ok _, (c.putNb box v).2, .detached) from rfl)
  exact ⟨m', there, ⟨_, carries.content.symm⟩, carries.max, carries.sized⟩

/-- A message that arrives rouses the task if it has just found its mailbox empty.  A mailbox
that is full stays so. -/
theorem Rests.putNb (h : c.Rests pending t reason listening) (box : MailboxId) (v : Value) :
    (c.putNb box v).2.Rests pending t reason listening := by
  cases h with
  | free attended why =>
    obtain ⟨about, after, same | ⟨same, -⟩⟩ := attended.putNb box v
    · exact .free (same ▸ after) why
    · exact .free (same ▸ after) why
  | message attended listens =>
    obtain ⟨about, after, same | ⟨same, u, m', leaves, here, filled⟩⟩ := attended.putNb box v
    · exact .message (same ▸ after) listens
    · cases leaves
      exact .roused (same ▸ after) here filled
  | roused attended here filled =>
    obtain ⟨m', there, ⟨more, items⟩, -⟩ :=
      content_putNb here (attended.tended _ _ here).sized box v
    have filled' : m'.ring.items ≠ [] := by
      rw [items]
      exact List.append_ne_nil_of_left_ne_nil filled more
    obtain ⟨about, after, same | ⟨same, -⟩⟩ := attended.putNb box v
    · exact .roused (same ▸ after) there filled'
    · exact .roused (same ▸ after) there filled'
  | space attended listens here full =>
    obtain ⟨m', there, ⟨more, items⟩, max, sized⟩ :=
      content_putNb here (attended.tended _ _ here).sized box v
    have full' : m'.ring.items.length = m'.ring.max := by
      have most := sized.length_le_max
      rw [items, List.length_append] at most ⊢
      omega
    obtain ⟨about, after, same | ⟨-, u, -, ⟨⟩, -⟩⟩ := attended.putNb box v
    exact .space (same ▸ after) listens there full'

theorem Rests.same (h : c.Rests pending t reason listening) (tasks : c'.tasks = c.tasks)
    (queue : c'.queue = c.queue) (boxes : c'.boxes = c.boxes)
    (exits : c'.exitBoxes = c.exitBoxes) (accepts : c'.accepts = c.accepts) :
    c'.Rests pending t reason listening := by
  cases h with
  | free attended why => exact .free (attended.same tasks queue boxes exits accepts) why
  | message attended listens =>
    exact .message (attended.same tasks queue boxes exits accepts) listens
  | roused attended here filled =>
    exact .roused (attended.same tasks queue boxes exits accepts)
      ((box?_congr boxes).trans here) filled
  | space attended listens here full =>
    exact .space (attended.same tasks queue boxes exits accepts) listens
      ((box?_congr boxes).trans here) full

theorem Rests.tick (h : c.Rests pending t reason listening) :
    c.tick.Rests pending t reason listening := by
  unfold Commons.tick
  rw [advance_eq]
  exact List.foldlRecOn (motive := fun c : Commons => c.Rests pending t reason listening) _ _
    (h.same rfl rfl rfl rfl rfl) fun c' before e _ => before.putNb e.payload.1 e.payload.2

theorem Rests.late (h : c.Rests pending t reason listening) (ticks : c₀ = c ∨ c₀ = c.tick) :
    c₀.Rests pending t reason listening := by
  rcases ticks with rfl | rfl
  · exact h
  · exact h.tick

end Commons

theorem Calm.late (h : Calm pending t debt c f) (ticks : c₀ = c ∨ c₀ = c.tick) :
    Calm pending t debt c₀ f := by
  rcases ticks with rfl | rfl
  · exact h
  · exact ⟨h.attended.advance _, h.task, h.frames, h.reason⟩

theorem Calm.rests (h : Calm pending t none c f) : c.Rests pending t f.reason f.listening :=
  .free h.attended (Or.inl h.reason)

theorem Calm.ended (h : Calm pending t none c f) : Ended pending t c f :=
  ⟨h.task, none, h.attended, nofun⟩

theorem Leaving.ended (h : Leaving pending t c f) : Ended pending t c f := by
  refine ⟨h.task, ?_⟩
  have rests := h.rests
  generalize f.reason = reason at rests
  cases rests with
  | free attended why => exact ⟨none, attended, nofun⟩
  | roused attended here filled => exact ⟨none, attended, nofun⟩
  | message attended listens =>
    refine ⟨_, attended, ?_⟩
    rintro u why ⟨⟩
    exact ⟨rfl, _, listens, Or.inl rfl⟩
  | space attended listens here full =>
    refine ⟨_, attended, ?_⟩
    rintro u why ⟨⟩
    exact ⟨rfl, _, listens, Or.inr rfl⟩

/-! ## Primitives -/

/-- A request that leaves the task at work. -/
def Op.isPlain : Op → Bool
  | .getNb _ => true
  | .putNb _ _ => true
  | .makeBox max => decide (max ≤ Ring.largest)
  | .timer _ _ _ => true
  | .print _ => true
  | .texts => true
  | .settle => true
  | .offer _ => true
  | _ => false

theorem Calm.plain (h : Calm pending t debt c f) {op : Op} (plain : op.isPlain = true)
    {r : op.Reply} (answer : op.perform c f = (.ok r, c', f')) : Calm pending t debt c' f' := by
  cases op with
  | getNb box =>
    cases answer
    exact ⟨h.attended.getNb box, h.task, h.frames, h.reason⟩
  | putNb box v =>
    cases answer
    obtain ⟨about, after, same | ⟨same, -⟩⟩ := h.attended.putNb box v
    · exact ⟨same ▸ after, h.task, h.frames, h.reason⟩
    · exact ⟨same ▸ after, h.task, h.frames, h.reason⟩
  | makeBox max =>
    cases answer
    exact ⟨h.attended.addBox (.bounded (of_decide_eq_true plain)), h.task, h.frames, h.reason⟩
  | timer delay box v =>
    cases answer
    exact ⟨h.attended.same rfl rfl rfl rfl rfl, h.task, h.frames, h.reason⟩
  | print v =>
    cases answer
    exact ⟨h.attended.same rfl rfl rfl rfl rfl, h.task, h.frames, h.reason⟩
  | texts =>
    cases answer
    exact h
  | settle =>
    cases answer
    exact ⟨h.attended, h.task, h.frames, h.reason⟩
  | offer v =>
    cases answer
    exact ⟨h.attended, h.task, h.frames, h.reason⟩
  | _ => cases plain

/-- What holds when a primitive ends. -/
def Performs (pending : TaskId → Option MailboxId) (t : TaskId) :
    Except MachineFault Outcome → Commons → Fiber → Prop
  | .ok .suspended, c, f => Leaving pending t c f
  | _, c, f => Calm pending t none c f

theorem Calm.secures_plain (h : Calm pending t debt c f) {op : Op} (plain : op.isPlain = true)
    {α : Type} {g : op.Reply → Drive σ α} {post : α → Commons → Fiber → Prop}
    (next : ∀ r c f, Calm pending t debt c f → (g r).Secures post c f) :
    (Drive.bind (.request op) g).Secures post c f :=
  .bind (.request fun _ ticks r c' f' answer => next r c' f' ((h.late ticks).plain plain answer))

theorem secures_suspendWith {p : Primitive} {slots : List Value} (task : f.task = some t)
    (rests : c.Rests pending t f.reason f.listening) (frames : f.frames = [])
    (saved : ∀ id, f.reason = some (.waitingForSpace id) →
      Frame.retries? ⟨p.procId, Primitive.retryState, slots⟩ = some id) :
    (p.suspendWith slots : Drive σ _).Secures (Performs pending t) c f := by
  refine .bind (.request fun c₀ ticks r c' f' answer => ?_)
  cases answer
  change Leaving pending t c₀ (f.unwind _)
  refine ⟨task, rests.late ticks, fun id reason => ?_⟩
  unfold Fiber.pending Fiber.unwind
  rw [frames]
  exact saved id reason

/-- A task that gives up the worker for a reason of its own. -/
theorem Calm.secures_pause (h : Calm pending t none c f) {why : PauseReason}
    (own : why = .yielded ∨ ∃ result, why = .done result) {α : Type} {g : Unit → Drive σ α}
    {post : α → Commons → Fiber → Prop}
    (next : ∀ c f, f.task = some t → c.Rests pending t f.reason f.listening → f.frames = [] →
      f.reason = some why → (g ()).Secures post c f) :
    (Drive.bind (.request (.pause why)) g).Secures post c f := by
  refine .bind (.request fun c₀ ticks r c' f' answer => ?_)
  cases answer
  have calm := h.late ticks
  refine next c₀ (f.pause why) calm.task (.free calm.attended (Or.inr ?_)) calm.frames rfl
  exact own.imp (congrArg some) fun ⟨result, same⟩ => ⟨result, congrArg some same⟩

theorem Calm.secures_yield (h : Calm pending t none c f) :
    (Drive.bind (.request (.pause .yielded)) fun _ =>
      Primitive.yield.suspendWith [] : Drive σ _).Secures (Performs pending t) c f := by
  refine h.secures_pause (Or.inl rfl) fun c f task rests frames reason => ?_
  refine secures_suspendWith task rests frames fun id waits => ?_
  rw [reason] at waits
  cases waits

/-- A task that ends itself saves no frame. -/
theorem Calm.secures_exit (h : Calm pending t none c f) (result : TaskResult) :
    (Drive.bind (.request (.pause (.done result))) fun _ =>
      .done (.ok .suspended) : Drive σ _).Secures (Performs pending t) c f := by
  refine h.secures_pause (Or.inr ⟨result, rfl⟩) fun c f task rests _ reason => ?_
  refine (⟨task, rests, fun id waits => ?_⟩ : Leaving pending t c f)
  rw [reason] at waits
  cases waits

/-- A task that gets a message, or has to wait for one. -/
theorem Calm.secures_get (h : Calm pending t none c f) {p : Primitive} {slots : List Value}
    {g : Value → Value} :
    (Drive.bind (.request (.get id)) fun
      | some message => .done (.ok (.returned (g message)))
      | none => p.suspendWith slots : Drive σ _).Secures (Performs pending t) c f := by
  refine .bind (.request fun c₀ ticks r c' f' answer => ?_)
  have calm := h.late ticks
  obtain ⟨attended, rfl⟩ | ⟨rfl, attended, rfl⟩ := calm.attended.get rfl calm.task answer
  · have after : Calm pending t none c' f' := ⟨attended, calm.task, calm.frames, calm.reason⟩
    cases r with
    | some message => exact after
    | none =>
      refine secures_suspendWith after.task after.rests after.frames fun id reason => ?_
      rw [after.reason] at reason
      cases reason
  · refine secures_suspendWith ?_ (.message attended f.mem_listen) ?_ ?_
    · exact (f.task_listen id).trans calm.task
    · exact (f.frames_listen id).trans calm.frames
    · rintro id' ⟨⟩

/-- A task that puts a message, perhaps one that it owes, or has to wait for space. -/
theorem Calm.secures_put (h : Calm pending t debt c f) (owes : debt = none ∨ debt = some id) :
    (Drive.bind (.request (.put id v)) fun
      | true => .done (.ok (.returned .unit))
      | false => Primitive.put.suspendWith [.mailbox id, v] : Drive σ _).Secures
        (Performs pending t) c f := by
  refine .bind (.request fun c₀ ticks r c' f' answer => ?_)
  have calm := h.late ticks
  obtain ⟨attended, rfl⟩ | ⟨rfl, attended, rfl, m', here, full⟩ :=
    calm.attended.put rfl calm.task owes answer
  · have after : Calm pending t none c' f' := ⟨attended, calm.task, calm.frames, calm.reason⟩
    cases r with
    | true => exact after
    | false =>
      refine secures_suspendWith after.task after.rests after.frames fun id reason => ?_
      rw [after.reason] at reason
      cases reason
  · refine secures_suspendWith ?_ (.space attended f.mem_listen here full) ?_ ?_
    · exact (f.task_listen id).trans calm.task
    · exact (f.frames_listen id).trans calm.frames
    · rintro id' ⟨⟩
      rfl

theorem Calm.secures_awaitAlarm (h : Calm pending t none c f) (alarm : MailboxId) :
    (Primitive.awaitAlarm alarm : Drive σ _).Secures (Performs pending t) c f :=
  h.secures_get (g := fun _ => .unit)

/-- A primitive leaves its task at work, or has it wait. -/
theorem Calm.secures_perform (h : Calm pending t none c f) (p : Primitive) (args : List Value)
    (again : Bool) : (p.perform args again : Drive σ _).Secures (Performs pending t) c f := by
  cases p with
  | print => exact h.secures_plain rfl fun _ _ _ calm => calm
  | getNb =>
    simp only [Primitive.perform]
    split
    · exact h
    · exact h.secures_plain rfl fun _ _ _ calm => calm
  | putNb =>
    simp only [Primitive.perform]
    split
    · exact h.secures_plain rfl fun _ _ _ calm => calm
    · exact h
  | yield =>
    simp only [Primitive.perform]
    split
    · exact h
    · cases args with
      | nil => exact h.secures_yield
      | cons v _ => exact h.secures_plain rfl fun _ _ _ calm => calm.secures_yield
  | get =>
    simp only [Primitive.perform]
    split
    · exact h
    · exact h.secures_get (g := fun v => v)
  | put =>
    simp only [Primitive.perform]
    split
    · exact h.secures_put (Or.inl rfl)
    · exact h
  | sleep =>
    simp only [Primitive.perform]
    split
    · split
      · exact h
      · exact h.secures_awaitAlarm _
    · split
      · exact h
      · refine h.secures_plain rfl fun alarm _ _ calm => ?_
        exact calm.secures_plain rfl fun _ _ _ calm => calm.secures_awaitAlarm alarm
  | exit => exact h.secures_exit _
  | errorExit => exact h.secures_exit _

end

/-! ## Steps -/

namespace Config

/-- The machine does not hand a suspension to a caller. -/
def Active (c : Config) : Prop := c.focus ≠ .deliver .suspended

theorem active_ofCall (target : ProcId) (args : List Value) : (ofCall target args).Active := by
  unfold Active ofCall
  exact nofun

theorem active_ofFrames (frames : List Frame) : (ofFrames frames).Active := by
  unfold Active ofFrames Outcome.returned
  exact nofun

/-- Only calls and callers that are left suspend. -/
def Goes (r : Except MachineFault Config) : Prop := ∀ c, r = .ok c → c.Active

/-- What a part of a step that asks for nothing can lead to: a fault, or the machine goes on
with an activation, hands over the end of a call or begins one. -/
inductive Inside (c : Config) : Except MachineFault Config → Prop
  | fault {fault : MachineFault} : Inside c (.error fault)
  | running {a : Activation} : Inside c (.ok (c.running a))
  | completed {completion : Completion} : Inside c (.ok (c.delivering (.completed completion)))
  | calling {a : Activation} {awaiting : Awaiting} {target : ProcId} {args : List Value} :
    Inside c (.ok (c.calling a awaiting target args))

variable {c : Config} {a : Activation}

theorem Inside.goes {r : Except MachineFault Config} (h : c.Inside r) : Goes r := by
  rintro c' rfl
  cases h <;> exact nofun

theorem inside_bind {α : Type} {x : Except MachineFault α} {g : α → Except MachineFault Config}
    (h : ∀ y, c.Inside (g y)) : c.Inside (x >>= g) := by
  cases x with
  | error fault => exact .fault
  | ok y => exact h y

theorem inside_goto (id : BlockId) : c.Inside (c.goto a id) := inside_bind fun _ => .running

theorem inside_raise (v : Value) : c.Inside (c.raise a v) := by
  unfold raise
  split
  · exact inside_bind fun _ => inside_goto _
  · exact .completed

theorem inside_complete (dst : Option LocalId) (completion : Completion) :
    c.Inside (c.complete a dst completion) := by
  cases completion with
  | value v => exact inside_bind fun _ => .running
  | exception v => exact inside_raise v

theorem inside_afterStmt (text : Value → String) (s : Stmt) :
    c.Inside (c.afterStmt text a s) := by
  cases s with
  | assign dst rvalue => exact inside_bind fun _ => inside_complete _ _
  | call dst func args => exact inside_bind fun _ => .calling
  | restore slots => exact inside_bind fun _ => .running
  | resume dst => exact inside_bind fun _ => inside_complete _ _

theorem inside_afterTerminator (t : Terminator) : c.Inside (c.afterTerminator a t) := by
  cases t with
  | ret value =>
    cases value with
    | none => exact .completed
    | some o => exact inside_bind fun _ => .completed
  | goto target => exact inside_goto target
  | branch cond thenBlock elseBlock =>
    refine inside_bind fun v => ?_
    split
    · exact inside_goto _
    · exact .fault
  | switch value cases fallback =>
    refine inside_bind fun v => ?_
    split
    · exact inside_goto _
    · exact .fault
  | throw value => exact inside_bind fun _ => inside_raise _
  | unreachable => exact .fault
  | dispatch fresh states => exact inside_bind fun _ => inside_goto _
  | suspendCall dst func args state save next => exact inside_bind fun _ => .calling

theorem inside_afterCall (caller : Caller) (completion : Completion) :
    c.Inside (c.afterCall caller completion) := by
  unfold afterCall
  split
  · exact inside_complete _ _
  · exact inside_bind fun _ => inside_goto _
  · exact inside_raise _

theorem inside_entered (program : Program) (target : ProcId) (args : List Value) :
    c.Inside (c.entered program target args) := by
  unfold entered
  split
  · exact .fault
  · split
    · exact inside_bind fun _ => .running
    · exact .fault

theorem inside_reentered (program : Program) (frame : Frame) (completion : Completion) :
    c.Inside (c.reentered program frame completion) := by
  unfold reentered
  split
  · exact .fault
  · split
    · exact inside_bind fun _ => .running
    · exact .fault

end Config

section

variable {c : Commons} {f : Fiber} {pending : TaskId → Option MailboxId} {t : TaskId}
  {debt : Option MailboxId} {cfg : Config} {program : Program} {σ : Type}

/-- The state in which a machine takes a step: at work, or on its way out. -/
def Stage (pending : TaskId → Option MailboxId) (t : TaskId) (cfg : Config) (c : Commons)
    (f : Fiber) : Prop :=
  (cfg.Active → Calm pending t none c f) ∧ (cfg.focus = .deliver .suspended → Leaving pending t c f)

/-- What holds when a run ends. -/
def Halts (pending : TaskId → Option MailboxId) (t : TaskId) :
    Except MachineFault Outcome → Commons → Fiber → Prop
  | .ok .suspended, c, f => Leaving pending t c f
  | _, c, f => Ended pending t c f

/-- What holds after a step. -/
def Steps (pending : TaskId → Option MailboxId) (t : TaskId) : Progress → Commons → Fiber → Prop
  | .running cfg, c, f => Stage pending t cfg c f
  | .halted r, c, f => Halts pending t r c f

theorem Calm.stage (h : Calm pending t none c f) (active : cfg.Active) : Stage pending t cfg c f :=
  ⟨fun _ => h, fun suspended => absurd suspended active⟩

theorem Leaving.stage (h : Leaving pending t c f) (suspended : cfg.focus = .deliver .suspended) :
    Stage pending t cfg c f :=
  ⟨fun active => absurd suspended active, fun _ => h⟩

theorem Calm.steps (h : Calm pending t none c f) {r : Except MachineFault Config}
    (goes : Config.Goes r) : Steps pending t (.ofExcept r) c f := by
  cases r with
  | error fault => exact h.ended
  | ok cfg => exact h.stage (goes cfg rfl)

/-- A primitive that was performed hands its end to the caller. -/
theorem Performs.steps {r : Except MachineFault Outcome} (h : Performs pending t r c f) :
    Steps pending t (.ofExcept (r.map cfg.delivering)) c f := by
  cases r with
  | error fault => exact Calm.ended h
  | ok outcome =>
    cases outcome with
    | completed completion => exact Calm.stage h nofun
    | suspended => exact Leaving.stage h rfl

theorem Calm.secures_primitive (h : Calm pending t none c f) (p : Primitive) (args : List Value)
    (again : Bool) : (cfg.perform p args again : Drive σ _).Secures (Steps pending t) c f :=
  .bind ((h.secures_perform p args again).mono fun _ _ _ performed => performed.steps)

/-- More frames are saved. -/
theorem Leaving.append (h : Leaving pending t c f) {f' : Fiber} {frames : List Frame}
    (task : f'.task = f.task) (reason : f'.reason = f.reason)
    (listening : f'.listening = f.listening) (saved : f'.frames = f.frames ++ frames) :
    Leaving pending t c f' where
  task := task.trans h.task
  rests := by
    rw [reason, listening]
    exact h.rests
  saved id waits := by
    have retries := h.saved id (by rw [← reason]; exact waits)
    unfold Fiber.pending at retries ⊢
    obtain ⟨frame, first, same⟩ := Option.bind_eq_some_iff.1 retries
    obtain ⟨rest, listed⟩ := List.head?_eq_some_iff.1 first
    rw [saved, listed]
    exact same

theorem Leaving.late {c₀ : Commons} (h : Leaving pending t c f) (ticks : c₀ = c ∨ c₀ = c.tick) :
    Leaving pending t c₀ f :=
  ⟨h.task, h.rests.late ticks, h.saved⟩

/-- A caller that is left saves a frame, or ends the run. -/
theorem Leaving.secures_suspendCaller (h : Leaving pending t c f) (caller : Caller) :
    (cfg.suspendCaller caller : Drive σ _).Secures (Steps pending t) c f := by
  cases awaiting : caller.awaiting with
  | plain callee dst =>
    simp only [Config.suspendCaller, awaiting]
    exact h.ended
  | resumable dst state save next =>
    cases saved : caller.activation.save save with
    | error fault =>
      simp only [Config.suspendCaller, awaiting, saved]
      exact h.ended
    | ok slots =>
      simp only [Config.suspendCaller, awaiting, saved]
      refine .bind (.request fun c₀ ticks r c' f' answer => ?_)
      cases answer
      change Stage pending t (cfg.delivering .suspended) _ _
      refine Leaving.stage ?_ rfl
      exact (h.late ticks).append rfl rfl rfl rfl

theorem Leaving.secures_finish (h : Leaving pending t c f) :
    (cfg.finish .suspended : Drive σ _).Secures (Steps pending t) c f := by
  cases outer : cfg.outer with
  | none =>
    simp only [Config.finish, outer]
    exact h
  | some frames =>
    simp only [Config.finish, outer]
    refine .bind (.request fun c₀ ticks r c' f' answer => ?_)
    cases answer
    change Leaving pending t _ _
    exact (h.late ticks).append rfl rfl rfl rfl

theorem Calm.secures_finish (h : Calm pending t none c f) (completion : Completion) :
    (cfg.finish (.completed completion) : Drive σ _).Secures (Steps pending t) c f := by
  cases outer : cfg.outer with
  | none =>
    simp only [Config.finish, outer]
    exact h.ended
  | some frames =>
    cases frames with
    | nil =>
      simp only [Config.finish, outer]
      exact h.secures_plain rfl fun _ _ _ calm => calm.ended
    | cons frame frames =>
      simp only [Config.finish, outer]
      change Stage pending t
        { cfg with focus := .reenter frame completion, outer := some frames } _ _
      exact h.stage nofun

/-- A machine at work works on or is on its way out, and then it only leaves. -/
theorem Stage.step (h : Stage pending t cfg c f) :
    (cfg.step program : Drive σ _).Secures (Steps pending t) c f := by
  obtain ⟨calm, leaving⟩ := h
  unfold Config.step
  cases focus : cfg.focus with
  | call target args =>
    have calm := calm (by rw [Config.Active, focus]; exact nofun)
    simp only
    split
    · exact calm.secures_primitive _ args false
    · exact calm.steps (Config.inside_entered program target args).goes
  | reenter frame completion =>
    have calm := calm (by rw [Config.Active, focus]; exact nofun)
    simp only
    split
    · exact calm.secures_primitive _ frame.slots true
    · exact calm.steps (Config.inside_reentered program frame completion).goes
  | run a =>
    have calm := calm (by rw [Config.Active, focus]; exact nofun)
    simp only
    split
    · exact calm.secures_plain rfl fun text _ _ calm =>
        calm.steps (Config.inside_afterStmt text _).goes
    · exact calm.steps (Config.inside_afterTerminator _).goes
  | deliver outcome =>
    simp only
    cases outcome with
    | completed completion =>
      have calm := calm (by rw [Config.Active, focus]; exact nofun)
      cases callers : cfg.callers with
      | nil => exact calm.secures_finish completion
      | cons caller callers => exact calm.steps (Config.inside_afterCall caller completion).goes
    | suspended =>
      have leaving := leaving focus
      cases callers : cfg.callers with
      | nil => exact leaving.secures_finish
      | cons caller callers => exact leaving.secures_suspendCaller caller

theorem Stage.run (h : Stage pending t cfg c f) (fuel : Nat) :
    (Config.run program fuel cfg : Drive σ _).Secures (Halts pending t) c f := by
  induction fuel generalizing cfg c f with
  | zero => trivial
  | succ fuel ih =>
    rw [Config.run_succ]
    refine .bind (h.step.mono fun progress c f stepped => ?_)
    cases progress with
    | running cfg => exact ih stepped
    | halted r => exact stepped

/-! ## Drives -/

/-- A frame that owes a message puts it as soon as it is entered again. -/
theorem Calm.secures_reenter {id : MailboxId} {frame : Frame} {frames : List Frame}
    {completion : Completion} (h : Calm pending t (some id) c f)
    (retries : frame.retries? = some id) (fuel : Nat) :
    (Config.run program fuel ⟨.reenter frame completion, [], some frames⟩ : Drive σ _).Secures
      (Halts pending t) c f := by
  cases fuel with
  | zero => trivial
  | succ fuel =>
    rw [Config.run_succ]
    unfold Frame.retries? at retries
    split at retries
    · rename_i message more named slots
      cases retries
      simp only [Config.step, named, slots]
      refine .bind (.bind ((h.secures_put (Or.inr rfl)).mono fun r c f performed => ?_))
      have steps : Steps pending t (.ofExcept (r.map (Config.delivering
        ⟨.reenter frame completion, [], some frames⟩))) c f := performed.steps
      generalize Progress.ofExcept _ = progress at steps
      cases progress with
      | running cfg => exact Stage.run steps fuel
      | halted r => exact steps
    · cases retries

/-- A machine that enters its saved frames again pays the debt first. -/
theorem Calm.secures_resume {frames : List Frame} (h : Calm pending t debt c f)
    (owes : frames.head?.bind Frame.retries? = debt) (fuel : Nat) :
    (Config.run program fuel (.ofFrames frames) : Drive σ _).Secures (Halts pending t) c f := by
  cases debt with
  | none => exact (h.stage (Config.active_ofFrames frames)).run fuel
  | some id =>
    cases frames with
    | nil => cases owes
    | cons frame frames =>
      cases fuel with
      | zero => trivial
      | succ fuel =>
        rw [Config.run_succ]
        exact h.secures_reenter owes fuel

/-- What holds when a drive of a machine ends. -/
def Drives (pending : TaskId → Option MailboxId) (t : TaskId) : DriveEnd → Commons → Fiber → Prop
  | .pending, c, f => Leaving pending t c f
  | .ready _, c, f => Ended pending t c f
  | .panicked _, _, _ => False

theorem Halts.drives {r : Except MachineFault Outcome} (h : Halts pending t r c f) :
    Drives pending t (Machine.driveEnd r) c f := by
  rcases r with fault | (⟨v⟩ | ⟨v⟩) | -
  all_goals exact h

/-- A drive of a machine begins at work, whatever it has to enter again, and keeps tasks and
mailboxes in agreement to its end. -/
theorem Machine.secures_execute (m : Machine) (fuel : Nat)
    (attended : c.Attended pending (· = t) none f.pending) (task : f.task = some t)
    (reason : f.reason = none) : (m.execute fuel).Secures (Drives pending t) c f := by
  have late : ∀ {c₀ c : Commons}, c₀ = c ∨ c₀ = c.tick →
      c.Attended pending (· = t) none f.pending → c₀.Attended pending (· = t) none f.pending := by
    rintro c₀ c (rfl | rfl) attended
    · exact attended
    · exact attended.advance _
  suffices halts : (m.advance fuel).Secures (Halts pending t) c f from
    .bind (halts.mono fun r c f halts => halts.drives)
  unfold Machine.advance
  refine .bind (.request fun c₁ ticks r c' f' answer => ?_)
  cases answer
  have attended := late ticks attended
  cases frames : f.frames with
  | nil =>
    rw [show f.isSuspended = false by simp [Fiber.isSuspended, frames]]
    have calm : Calm pending t none c₁ f := by
      refine ⟨?_, task, frames, reason⟩
      rw [show f.pending = none by simp [Fiber.pending, frames]] at attended
      exact attended
    cases m.args with
    | none => exact calm.ended
    | some args => exact (calm.stage (Config.active_ofCall m.entry args)).run fuel
  | cons frame more =>
    rw [show f.isSuspended = true by simp [Fiber.isSuspended, frames]]
    refine .bind (.request fun c₂ ticks r c' f' answer => ?_)
    cases answer
    have calm : Calm pending t f.pending c₂ f.rewind.2 :=
      ⟨late ticks attended, task, rfl, reason⟩
    exact calm.secures_resume rfl fuel

end

end Resumable
