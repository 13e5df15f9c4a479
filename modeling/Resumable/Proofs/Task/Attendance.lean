import Resumable.Proofs.Task.Attended

/-!
# Tasks and mailboxes between drives

What begins and ends a drive keeps tasks and mailboxes in agreement (`Attended.pop`,
`Attended.finish`, `Attended.conclude_waiting`, `Attended.conclude_roused`), and so does what
happens between two drives: exit messages, new tasks and mailboxes, starts, timers.
-/

namespace Resumable.Commons

variable {c c' : Commons} {t u : TaskId} {why : PauseReason} {id : MailboxId}
  {away : TaskId → Prop} {pending pending' : TaskId → Option MailboxId}
  {about : Option (TaskId × PauseReason)} {debt : Option MailboxId}

namespace Attended

/-! ## Exit messages -/

theorem setExit (h : c.Attended pending away about debt) {e : ExitBoxId} {m : Mailbox ExitMessage}
    (quiet : m.consumer = none ∧ m.producers = []) :
    ({ c with exitBoxes := c.exitBoxes.set e.index m } : Commons).Attended
      pending away about debt where
  orderly := by refine (keeps_same c ?_ ?_ h.orderly).1 <;> rfl
  accepts := h.accepts
  quiet m₀ there := by
    rcases List.mem_or_eq_of_mem_set there with there | rfl
    · exact h.quiet m₀ there
    · exact quiet
  tended := h.tended
  known := h.known
  retries := h.retries
  leaving := h.leaving

/-- Nobody waits on an exit mailbox, so nobody is woken by an exit message. -/
theorem notifyExit (h : c.Attended pending away about debt) (message : ExitMessage)
    (e : ExitBoxId) : (c.notifyExit message e).Attended pending away about debt := by
  unfold Commons.notifyExit
  split
  · rename_i woken m' given
    obtain ⟨m, here, give⟩ := Option.bind_eq_some_iff.1 given
    obtain ⟨consumer, producers⟩ := h.quiet m (List.mem_of_getElem? here)
    obtain ⟨rfl, consumer', producers'⟩ := Mailbox.give?_listeners give
    rw [consumer]
    exact h.setExit ⟨consumer', producers'.trans producers⟩
  · exact h

theorem takeExit? (h : c.Attended pending away about debt) {message : ExitMessage}
    {e : ExitBoxId} (take : c.takeExit? e = some (message, c')) :
    c'.Attended pending away about debt := by
  unfold Commons.takeExit? at take
  split at take
  · rename_i woken m' taken
    obtain ⟨m, here, take'⟩ := Option.bind_eq_some_iff.1 taken
    obtain ⟨consumer, producers⟩ := h.quiet m (List.mem_of_getElem? here)
    obtain ⟨waits, consumer', line⟩ := Mailbox.take?_listeners take'
    rw [producers] at waits line
    obtain rfl : woken = none := Option.eq_none_iff_forall_not_mem.2 fun t woken =>
      nomatch waits t woken
    cases take
    exact h.setExit ⟨consumer'.trans consumer, List.eq_nil_iff_forall_not_mem.2 fun t there =>
      nomatch line t there⟩
  · cases take

/-! ## Drives -/

/-- The first task of the queue is driven.  If it owed a message, that is the debt now. -/
theorem pop (h : c.Attended pending (fun _ => False) none none) {rest : List TaskId}
    (queue : c.queue = t :: rest) :
    ({ c with queue := rest } : Commons).Attended pending (· = t) none (pending t) := by
  refine h.keep ?_ h.accepts rfl rfl (fun _ _ => Iff.rfl) ?_ h.retries nofun
  · exact (h.orderly.pop queue).congr fun u => by simp
  · intro id
    unfold Commons.owed
    rw [queue, List.countP_cons]
    simp

theorem owed_elsewhere (h : c.Attended pending (· = t) about none)
    (same : ∀ u, u ≠ t → pending' u = pending u) (id : MailboxId) :
    c.owed pending' none id = c.owed pending none id := by
  unfold Commons.owed
  congr 1
  refine List.countP_congr fun u queued => ?_
  have ne : u ≠ t := by
    rintro rfl
    exact h.orderly.apart u rfl queued
  rw [same u ne]

theorem retries_elsewhere (h : c.Attended pending (· = t) about none)
    (same : ∀ u, u ≠ t → pending' u = pending u) (waits : c.Waits u (.waitingForSpace id)) :
    pending' u = some id := by
  rw [same u]
  · exact h.retries u id waits
  · rintro rfl
    exact h.not_waits rfl waits

/-- The task of a drive is done. -/
theorem finish (h : c.Attended pending (· = t) none none)
    (same : ∀ u, u ≠ t → pending' u = pending u) (result : TaskResult) :
    (c.finish t result).Attended pending' (fun _ => False) none none := by
  obtain ⟨r, here, -⟩ := h.orderly.running rfl
  have waits : ∀ u why, (c.setTask t (r.ended result)).Waits u why ↔ c.Waits u why := by
    intro u why
    rw [waits_setTask_awake here (by simp [TaskRecord.status, TaskRecord.ended])]
    refine and_iff_left_of_imp fun waits => ?_
    rintro rfl
    exact h.not_waits rfl waits
  have settled : (c.setTask t (r.ended result)).Attended pending' (fun _ => False) none none := by
    refine h.keep ?_ h.accepts rfl rfl (fun u why => or_congr (waits u why) Iff.rfl) ?_ ?_ ?_
    · exact (h.orderly.ended rfl (fun u => iff_of_false id fun gone => gone.2 gone.1) here result).1
    · exact fun id => Nat.le_of_eq (h.owed_elsewhere same id).symm
    · exact fun u id there => h.retries_elsewhere same ((waits u _).1 there)
    · rintro u why ⟨⟩
  rw [finish_eq here]
  refine List.foldlRecOn
    (motive := fun c : Commons => c.Attended pending' (fun _ => False) none none)
    _ _ settled fun c' before e _ => before.notifyExit _ e

/-- The task of a drive pauses, and what it waits for has not happened. -/
theorem conclude_waiting (h : c.Attended pending (· = t) (some (t, why)) none)
    (lasts : why.isDone = false) (holds : c.holds why = true)
    (same : ∀ u, u ≠ t → pending' u = pending u)
    (retries : ∀ id, why = .waitingForSpace id → pending' t = some id) :
    (TaskPool.conclude c t .pending (some why)).Attended pending' (fun _ => False) none none := by
  obtain ⟨r, here, done, started, sound⟩ := h.orderly.running rfl
  have lasts' : ((some why).any (·.isDone)) = false := lasts
  have orderly : (TaskPool.conclude c t .pending (some why)).Orderly fun _ => False :=
    (h.orderly.conclude rfl (fun u => iff_of_false id fun gone => gone.2 gone.1) lasts').1
  have paused : TaskPool.conclude c t .pending (some why) = c.paused t r why := by
    rw [conclude_pending here lasts']
    exact if_pos holds
  rw [paused] at orderly ⊢
  have waits : ∀ u why', (c.paused t r why).Waits u why' ↔ c.Role (some (t, why)) u why' := by
    intro u why'
    unfold Role Commons.paused
    rw [waits_setTask here]
    split
    · rename_i same
      subst same
      have awake : ¬ c.Waits u why' := h.not_waits rfl
      simp [awake, TaskRecord.status_eq_paused_iff, done, started]
    · rename_i ne
      refine (or_iff_left ?_).symm
      rintro ⟨⟩
      exact ne rfl
  refine h.keep orderly h.accepts rfl rfl (fun u why' => ?_) ?_ ?_ nofun
  · exact (or_iff_left nofun).trans (waits u why')
  · exact fun id => Nat.le_of_eq (h.owed_elsewhere same id).symm
  · intro u id there
    rcases (waits u _).1 there with waits | leaves
    · exact h.retries_elsewhere same waits
    · cases leaves
      exact retries id rfl

/-- A task that pauses while what it waits for has happened goes back to the queue. -/
theorem conclude_eq_queued (h : c.Attended pending (· = t) none none) {r : TaskRecord}
    {reason : Option PauseReason} (here : c.task? t = some r) (done : r.done = false)
    (started : r.started = true) (attached : r.attached = true)
    (lasts : (reason.any (·.isDone)) = false) (past : c.holds (reason.getD .yielded) = false) :
    TaskPool.conclude c t .pending reason =
      (c.paused t r (reason.getD .yielded)).queued t
        { r with reason := some (reason.getD .yielded), running := true } := by
  have resumed := conclude_pending here lasts
  generalize reason.getD .yielded = why at past resumed ⊢
  have there : (c.paused t r why).task? t =
      some { r with reason := some why, running := false } := by
    rw [Commons.paused, task?_setTask here, if_pos rfl]
  have accepts : (c.paused t r why).accepts = true := h.accepts
  have idle : (c.paused t r why).holds why = false := past
  rw [resumed, if_neg (by rw [idle]; nofun)]
  unfold resume
  rw [there]
  simp [done, started, attached, schedule?_setTask, accepts]

/-- A task that pauses and goes back to the queue does not wait, as before. -/
theorem waits_paused_queued (h : c.Attended pending (· = t) none none) {r : TaskRecord}
    (here : c.task? t = some r) (why : PauseReason) (u : TaskId) (why' : PauseReason) :
    ((c.paused t r why).queued t { r with reason := some why, running := true }).Waits u why' ↔
      c.Waits u why' := by
  have there : (c.paused t r why).task? t =
      some { r with reason := some why, running := false } := by
    rw [Commons.paused, task?_setTask here, if_pos rfl]
  have first : ((c.paused t r why).setTask t
      { r with reason := some why, running := true }).Waits u why' ↔ _ :=
    waits_setTask_awake there (by simp [TaskRecord.status_eq_paused_iff])
  refine first.trans ?_
  rw [Commons.paused, waits_setTask here]
  constructor
  · rintro ⟨waits, ne⟩
    rwa [if_neg ne] at waits
  · intro waits
    have ne : u ≠ t := by
      rintro rfl
      exact h.not_waits rfl waits
    exact ⟨by rw [if_neg ne]; exact waits, ne⟩

/-- The task of a drive pauses, and goes on at once. -/
theorem conclude_roused (h : c.Attended pending (· = t) none none) {reason : Option PauseReason}
    (lasts : (reason.any (·.isDone)) = false) (past : c.holds (reason.getD .yielded) = false)
    (same : ∀ u, u ≠ t → pending' u = pending u) :
    (TaskPool.conclude c t .pending reason).Attended pending' (fun _ => False) none none := by
  obtain ⟨r, here, done, started, sound⟩ := h.orderly.running rfl
  have orderly : (TaskPool.conclude c t .pending reason).Orderly fun _ => False :=
    (h.orderly.conclude rfl (fun u => iff_of_false id fun gone => gone.2 gone.1) lasts).1
  have resumed := h.conclude_eq_queued here done started (sound.live started done).1 lasts past
  generalize reason.getD .yielded = why at resumed
  have waits := h.waits_paused_queued here why
  rw [resumed] at orderly ⊢
  refine h.keep orderly h.accepts rfl rfl (fun u why' => or_congr (waits u why') Iff.rfl) ?_ ?_
    nofun
  · intro id
    rw [owed_queued]
    have less := h.owed_elsewhere same id
    change _ ≤ c.owed pending' none id + _
    omega
  · exact fun u id there => h.retries_elsewhere same ((waits u _).1 there)

/-! ## Between drives -/

/-- What has nothing to do with tasks and mailboxes. -/
theorem same (h : c.Attended pending away about debt) (tasks : c'.tasks = c.tasks)
    (queue : c'.queue = c.queue) (boxes : c'.boxes = c.boxes)
    (exits : c'.exitBoxes = c.exitBoxes) (accepts : c'.accepts = c.accepts) :
    c'.Attended pending away about debt := by
  refine h.keep (keeps_same c tasks queue h.orderly).1 (accepts.trans h.accepts) exits boxes
    ?_ ?_ ?_ h.leaving
  · exact fun u why => or_congr (waits_congr tasks) Iff.rfl
  · intro id
    unfold Commons.owed
    exact Nat.le_of_eq (by rw [queue])
  · exact fun u id waits => h.retries u id ((waits_congr tasks).1 waits)

/-- A task that is started goes to the queue. -/
theorem start (h : c.Attended pending away about debt) (t : TaskId) :
    (c.start t).2.Attended pending away about debt := by
  obtain ⟨r, here, fresh, -, started⟩ | ⟨e, failed⟩ | ⟨r, here, fresh, refuses, -⟩ :=
    start_cases c t
  · obtain ⟨-, done, -⟩ := (h.orderly.sound t r here).created fresh
    have orderly := (keeps_start c t h.orderly).1
    rw [started] at orderly ⊢
    have waits : ∀ u why, (c.queued t
        { r with started := true, running := true, attached := true }).Waits u why ↔
        c.Waits u why := by
      intro u why
      refine (waits_setTask_awake here (by simp [TaskRecord.status_eq_paused_iff])).trans ?_
      refine and_iff_left_of_imp fun ⟨r', there, paused, _⟩ => ?_
      rintro rfl
      rw [here] at there
      cases there
      simp [TaskRecord.status_eq_paused_iff, fresh] at paused
    refine h.keep orderly h.accepts rfl rfl (fun u why => or_congr (waits u why) Iff.rfl) ?_ ?_
      h.leaving
    · intro id
      rw [owed_queued]
      exact Nat.le_add_right _ _
    · exact fun u id there => h.retries u id ((waits u _).1 there)
  · rw [failed]
    exact h
  · rw [h.accepts] at refuses
    cases refuses

theorem addTask (h : c.Attended pending away about debt) :
    c.addTask.2.Attended pending away about debt := by
  have waits : ∀ u why, c.addTask.2.Waits u why ↔ c.Waits u why := by
    intro u why
    unfold Waits
    rw [task?_addTask]
    split
    · rename_i same
      rw [same, task?_addTask_new]
      simp [TaskRecord.status_eq_paused_iff, TaskRecord.fresh]
    · exact Iff.rfl
  refine h.keep h.orderly.addTask.1 h.accepts rfl rfl
    (fun u why => or_congr (waits u why) Iff.rfl) (fun _ => Nat.le_refl _) ?_ h.leaving
  exact fun u id there => h.retries u id ((waits u _).1 there)

theorem addBox (h : c.Attended pending away about debt) {m : Mailbox Value} (made : m.Made) :
    (c.addBox m).2.Attended pending away about debt where
  orderly := by refine (keeps_same c ?_ ?_ h.orderly).1 <;> rfl
  accepts := h.accepts
  quiet := h.quiet
  tended id m' there := by
    have unknown : c.box? id = none → ∀ u, ¬ c.Role about u (.waitingForMessage id) ∧
        ¬ c.Role about u (.waitingForSpace id) := by
      refine fun none u => ⟨fun role => ?_, fun role => ?_⟩
      · obtain ⟨m, here⟩ := h.known u id (Or.inl role)
        rw [none] at here
        cases here
      · obtain ⟨m, here⟩ := h.known u id (Or.inr role)
        rw [none] at here
        cases here
    have there : (c.boxes ++ [m])[id.index]? = some m' := there
    rw [List.getElem?_append] at there
    split at there
    · exact h.tended id m' there
    · rename_i beyond
      have new := unknown (List.getElem?_eq_none (Nat.le_of_not_lt beyond))
      obtain rfl : m = m' := List.mem_singleton.1 (List.mem_of_getElem? there) |>.symm
      exact .ofMade made (fun u => (new u).1) fun u => (new u).2
  known u id plays := by
    obtain ⟨m', here⟩ := h.known u id plays
    obtain ⟨lt, -⟩ := List.getElem?_eq_some_iff.1 here
    exact ⟨m', (List.getElem?_append_left lt).trans here⟩
  retries := h.retries
  leaving := h.leaving

theorem addExitBox (h : c.Attended pending away about debt) {m : Mailbox ExitMessage}
    (made : m.Made) : (c.addExitBox m).2.Attended pending away about debt where
  orderly := by refine (keeps_same c ?_ ?_ h.orderly).1 <;> rfl
  accepts := h.accepts
  quiet m' there := by
    rcases List.mem_append.1 there with there | new
    · exact h.quiet m' there
    · obtain ⟨-, -, quiet⟩ := made.empty
      rw [List.mem_singleton.1 new]
      exact quiet
  tended := h.tended
  known := h.known
  retries := h.retries
  leaving := h.leaving

theorem informOnExit (h : c.Attended pending away about debt) (t : TaskId) (e : ExitBoxId) :
    (c.informOnExit t e).Attended pending away about debt := by
  have orderly := (keeps_informOnExit c t e h.orderly).1
  unfold Commons.informOnExit at orderly ⊢
  cases here : c.task? t with
  | none => exact h
  | some r =>
    rw [here] at orderly
    simp only at orderly ⊢
    split at orderly
    · exact h.notifyExit _ e
    · have waits : ∀ u why, (c.setTask t { r with informed := r.informed ++ [e] }).Waits u why ↔
          c.Waits u why := by
        intro u why
        rw [waits_setTask here]
        split
        · rename_i same
          unfold Waits
          rw [same, here]
          simp [TaskRecord.status]
        · exact Iff.rfl
      exact h.keep orderly h.accepts rfl rfl (fun u why => or_congr (waits u why) Iff.rfl)
        (fun _ => Nat.le_refl _) (fun u id there => h.retries u id ((waits u _).1 there)) h.leaving

/-- Timers put their messages while nobody is about to wait. -/
theorem advance (h : c.Attended pending away none debt) (time : Nat) :
    (c.advance time).Attended pending away none debt := by
  rw [advance_eq]
  refine List.foldlRecOn (motive := fun c : Commons => c.Attended pending away none debt) _ _
    (h.same rfl rfl rfl rfl rfl) fun c' before e _ => ?_
  obtain ⟨about', after, same | ⟨same, -⟩⟩ := before.putNb e.payload.1 e.payload.2
  · exact same ▸ after
  · exact same ▸ after

end Attended

end Resumable.Commons
