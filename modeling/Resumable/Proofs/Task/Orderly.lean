import Mathlib.Data.List.Nodup
import Resumable.Proofs.Task.Deals

/-!
# Records in order

The flags of a task and the queue say the same thing.  A record is sound
(`TaskRecord.Sound`): a task that was never started has no trace of it, one that goes on has
an executor, and a result belongs to a task that is done.  Tasks are in order
(`Commons.Orderly`): a running task stands in the queue, once, or it is away, driven by a
worker or lost with one.

Every operation keeps this, and no record falls back by it (`Commons.Keeps`): starts and
resumptions do, and most operations are made of them (`Commons.Deals.keeps`).  A task never
stops to be done, and its result never changes.
-/

namespace Resumable

/-! ## Records -/

namespace TaskRecord

variable {r r' r'' : TaskRecord}

theorem status_eq_done_iff : r.status = .done ↔ r.done = true := by
  unfold status
  cases r.done <;> cases r.started <;> cases r.running <;> simp

theorem status_eq_created_iff : r.status = .created ↔ r.done = false ∧ r.started = false := by
  unfold status
  cases r.done <;> cases r.started <;> cases r.running <;> simp

theorem status_eq_running_iff :
    r.status = .running ↔ r.done = false ∧ r.started = true ∧ r.running = true := by
  unfold status
  cases r.done <;> cases r.started <;> cases r.running <;> simp

theorem status_eq_paused_iff :
    r.status = .paused ↔ r.done = false ∧ r.started = true ∧ r.running = false := by
  unfold status
  cases r.done <;> cases r.started <;> cases r.running <;> simp

/-- The flags of a record agree with each other. -/
structure Sound (r : TaskRecord) : Prop where
  created : r.started = false →
    r.running = false ∧ r.done = false ∧ r.attached = false ∧ r.result = none
  live : r.started = true → r.done = false → r.attached = true ∧ r.result = none
  done : r.done = true → r.running = false ∧ r.result.isSome = true

theorem sound_fresh : fresh.Sound where
  created _ := ⟨rfl, rfl, rfl, rfl⟩
  live started := by cases started
  done done := by cases done

/-- The record of a task that has ended: nobody is left to be informed. -/
def ended (r : TaskRecord) (result : TaskResult) : TaskRecord :=
  { r with
    done := true, running := false, reason := some (.done result), result := some result
    informed := [], attached := false }

/-- A later state of a task: nothing is taken back. -/
structure Becomes (r r' : TaskRecord) : Prop where
  started : r.started = true → r'.started = true
  done : r.done = true → r'.done = true
  result : ∀ result, r.result = some result → r'.result = some result

theorem Becomes.refl (r : TaskRecord) : r.Becomes r := ⟨id, id, fun _ => id⟩

theorem Becomes.trans (h : r.Becomes r') (h' : r'.Becomes r'') : r.Becomes r'' where
  started := h'.started ∘ h.started
  done := h'.done ∘ h.done
  result e := h'.result e ∘ h.result e

end TaskRecord

/-! ## What tasks share -/

namespace Commons

variable {c c' c'' : Commons} {t u : TaskId} {r r₀ : TaskRecord} {away away' : TaskId → Prop}

/-- The stage that a task is at. -/
def status? (c : Commons) (t : TaskId) : Option TaskStatus := (c.task? t).map (·.status)

theorem status?_eq_some_iff {stage : TaskStatus} :
    c.status? t = some stage ↔ ∃ r, c.task? t = some r ∧ r.status = stage := by
  unfold status?
  rw [Option.map_eq_some_iff]

theorem status?_setTask (here : c.task? t = some r₀) :
    (c.setTask t r).status? u = if u = t then some r.status else c.status? u := by
  unfold status?
  rw [task?_setTask here]
  split <;> rfl

/-- Every task that runs stands in the queue, once, or it is away. -/
structure Orderly (c : Commons) (away : TaskId → Prop) : Prop where
  sound : ∀ t r, c.task? t = some r → r.Sound
  nodup : c.queue.Nodup
  running_iff : ∀ t, c.status? t = some .running ↔ t ∈ c.queue ∨ away t
  apart : ∀ t, away t → t ∉ c.queue

/-- A later state: no task falls back. -/
def Later (c c' : Commons) : Prop :=
  ∀ t r, c.task? t = some r → ∃ r', c'.task? t = some r' ∧ r.Becomes r'

theorem Later.refl (c : Commons) : c.Later c := fun _ r here => ⟨r, here, .refl r⟩

theorem Later.trans (h : c.Later c') (h' : c'.Later c'') : c.Later c'' := by
  intro t r here
  obtain ⟨r', there, first⟩ := h t r here
  obtain ⟨r'', found, second⟩ := h' t r' there
  exact ⟨r'', found, first.trans second⟩

/-- A later state with the same tasks. -/
structure Evolves (c c' : Commons) : Prop where
  later : c.Later c'
  length : c'.tasks.length = c.tasks.length

theorem Evolves.refl (c : Commons) : c.Evolves c := ⟨.refl c, rfl⟩

theorem Evolves.trans (h : c.Evolves c') (h' : c'.Evolves c'') : c.Evolves c'' :=
  ⟨h.later.trans h'.later, h'.length.trans h.length⟩

theorem orderly_empty : Commons.empty.Orderly fun _ => False where
  sound t r here := by
    unfold task? at here
    split at here <;> cases here
  nodup := List.nodup_nil
  running_iff t := by
    refine iff_of_false ?_ (by simp [empty])
    unfold status? task?
    split <;> exact nofun
  apart _ := False.elim

theorem Orderly.congr (h : c.Orderly away) (same : ∀ t, away' t ↔ away t) : c.Orderly away' := by
  obtain rfl : away' = away := funext fun t => propext (same t)
  exact h

/-- A record may change together with the place of its task. -/
theorem Orderly.change (h : c.Orderly away) (here : c.task? t = some r₀) (sound : r.Sound)
    {queue : List TaskId} (nodup : queue.Nodup)
    (this : r.status = .running ↔ t ∈ queue ∨ away' t) (apart : away' t → t ∉ queue)
    (others : ∀ u, u ≠ t → (u ∈ queue ↔ u ∈ c.queue) ∧ (away' u ↔ away u)) :
    ({ c.setTask t r with queue } : Commons).Orderly away' where
  sound u r' found := by
    have found : (c.setTask t r).task? u = some r' := found
    rw [task?_setTask here] at found
    split at found
    · cases found
      exact sound
    · exact h.sound u r' found
  nodup := nodup
  running_iff u := by
    change ((c.setTask t r).task? u).map (·.status) = some .running ↔ _
    rw [task?_setTask here]
    by_cases same : u = t
    · subst same
      simpa using this
    · rw [if_neg same, (others u same).1, (others u same).2]
      exact h.running_iff u
  apart u gone := by
    by_cases same : u = t
    · subst same
      exact apart gone
    · rw [(others u same).1]
      exact h.apart u ((others u same).2.1 gone)

theorem evolves_setTask (here : c.task? t = some r₀) (becomes : r₀.Becomes r) :
    c.Evolves (c.setTask t r) := by
  refine ⟨fun u r' found => ?_, List.length_set⟩
  rw [task?_setTask here]
  split
  · rename_i same
    rw [same, here] at found
    cases found
    exact ⟨r, rfl, becomes⟩
  · exact ⟨r', found, .refl r'⟩

/-! ## What operations keep -/

/-- A change that keeps tasks in order. -/
def Keeps (away : TaskId → Prop) (c c' : Commons) : Prop :=
  c.Orderly away → c'.Orderly away ∧ c.Evolves c'

theorem Keeps.refl (c : Commons) : Keeps away c c := fun h => ⟨h, .refl c⟩

theorem Keeps.trans (h : Keeps away c c') (h' : Keeps away c' c'') : Keeps away c c'' := by
  intro orderly
  obtain ⟨orderly', first⟩ := h orderly
  obtain ⟨orderly'', second⟩ := h' orderly'
  exact ⟨orderly'', first.trans second⟩

/-- What has nothing to do with tasks. -/
theorem keeps_same (c : Commons) (tasks : c'.tasks = c.tasks) (queue : c'.queue = c.queue) :
    Keeps away c c' := by
  have same : ∀ t, c'.task? t = c.task? t := fun t => by
    unfold task?
    rw [tasks]
  intro h
  refine ⟨⟨?_, by rw [queue]; exact h.nodup, ?_, by rw [queue]; exact h.apart⟩, ?_⟩
  · intro t r here
    exact h.sound t r (by rw [← same t]; exact here)
  · intro t
    unfold status?
    rw [same, queue]
    exact h.running_iff t
  · refine ⟨fun t r here => ⟨r, (same t).trans here, .refl r⟩, ?_⟩
    rw [tasks]

/-- A task that does not run goes to the end of the queue. -/
theorem keeps_queued (here : c.task? t = some r₀) (idle : r₀.status ≠ .running)
    (runs : r.status = .running) (sound : r₀.Sound → r.Sound) (becomes : r₀.Becomes r) :
    Keeps away c (c.queued t r) := by
  intro h
  have absent : ¬ (t ∈ c.queue ∨ away t) := by
    rw [← h.running_iff t, status?_eq_some_iff]
    rintro ⟨r', found, running⟩
    rw [here] at found
    cases found
    exact idle running
  obtain ⟨outside, home⟩ := not_or.1 absent
  obtain ⟨later, length⟩ := evolves_setTask here becomes
  refine ⟨h.change here (sound (h.sound t r₀ here)) ?_ ?_ ?_ ?_, later, length⟩
  · exact h.nodup.append (List.nodup_singleton t) (List.disjoint_singleton.2 outside)
  · exact iff_of_true runs (Or.inl (by simp))
  · exact fun gone => absurd gone home
  · intro u ne
    simp [ne]

theorem Orderly.setTask_start (h : c.Orderly away) (here : c.task? t = some r)
    (fresh : r.started = false) :
    c.setTask t { r with started := false, running := false, attached := false } = c := by
  obtain ⟨running, -, attached, -⟩ := (h.sound t r here).created fresh
  have same : { r with started := false, running := false, attached := false } = r := by
    cases r
    simp_all
  rw [same, setTask_self here]

/-- A start that fails changes nothing. -/
theorem Orderly.start_error (h : c.Orderly away) {e : TaskError}
    (failed : (c.start t).1 = .error e) : (c.start t).2 = c := by
  obtain ⟨r, -, -, -, same⟩ | ⟨e', same⟩ | ⟨r, here, fresh, -, same⟩ := start_cases c t
  · rw [same] at failed
    cases failed
  · rw [same]
  · rw [same]
    exact h.setTask_start here fresh

theorem keeps_start (c : Commons) (t : TaskId) : Keeps away c (c.start t).2 := by
  intro h
  obtain ⟨r, here, fresh, -, same⟩ | ⟨e', same⟩ | ⟨r, here, fresh, -, same⟩ := start_cases c t
  · rw [same]
    obtain ⟨running, done, -, result⟩ := (h.sound t r here).created fresh
    refine keeps_queued here ?_ ?_ ?_ ?_ h
    · simp [TaskRecord.status_eq_running_iff, fresh]
    · simp [TaskRecord.status_eq_running_iff, done]
    · exact fun _ => ⟨nofun, fun _ _ => ⟨rfl, result⟩, fun ended => by simp [done] at ended⟩
    · exact ⟨fun _ => rfl, id, fun _ => id⟩
  · rw [same]
    exact Keeps.refl c h
  · rw [same, h.setTask_start here fresh]
    exact Keeps.refl c h

/-- A paused task has an executor, so a resumption hands it over or changes nothing. -/
theorem Orderly.resume_cases (h : c.Orderly away) (t : TaskId) :
    (∃ r, c.task? t = some r ∧ r.status = .paused ∧ c.accepts = true ∧
      c.resume t = c.queued t { r with running := true }) ∨ c.resume t = c := by
  obtain ⟨r, here, paused, -, accepts, same⟩ | same | ⟨r, here, paused, detached, -⟩ :=
    Commons.resume_cases c t
  · exact Or.inl ⟨r, here, paused, accepts, same⟩
  · exact Or.inr same
  · obtain ⟨done, started, -⟩ := TaskRecord.status_eq_paused_iff.1 paused
    obtain ⟨attached, -⟩ := (h.sound t r here).live started done
    rw [detached] at attached
    cases attached

theorem Orderly.resume_paused (h : c.Orderly away) (here : c.task? t = some r)
    (paused : r.status = .paused) (accepts : c.accepts = true) :
    c.resume t = c.queued t { r with running := true } := by
  obtain ⟨done, started, running⟩ := TaskRecord.status_eq_paused_iff.1 paused
  obtain ⟨attached, -⟩ := (h.sound t r here).live started done
  unfold resume
  rw [here]
  simp [done, started, running, attached, schedule?_setTask, accepts]

theorem keeps_resume (c : Commons) (t : TaskId) : Keeps away c (c.resume t) := by
  intro h
  obtain ⟨r, here, paused, -, same⟩ | same := h.resume_cases t
  · rw [same]
    obtain ⟨done, started, running⟩ := TaskRecord.status_eq_paused_iff.1 paused
    refine keeps_queued here (by simp [paused]) ?_ ?_ ⟨id, id, fun _ => id⟩ h
    · simp [TaskRecord.status_eq_running_iff, done, started]
    · exact fun sound => ⟨fun fresh => by simp [started] at fresh, sound.live,
        fun ended => by simp [done] at ended⟩
  · rw [same]
    exact Keeps.refl c h

/-- What operations are made of keeps tasks in order. -/
theorem Deals.keeps (h : c.Deals c') : Keeps away c c' := by
  induction h with
  | refl => exact .refl c
  | tail _ deal ih =>
    refine ih.trans ?_
    cases deal with
    | elsewhere apart => exact keeps_same _ apart.tasks apart.queue
    | start t => exact keeps_start _ t
    | resume t => exact keeps_resume _ t

theorem keeps_wake (c : Commons) (woken : Option TaskId) : Keeps away c (c.wake woken) :=
  ((Deals.refl c).wake woken).keeps

/-- A start from a task that fails changes nothing either. -/
theorem Orderly.startFrom_error (h : c.Orderly away) {current : Option TaskId} {e : TaskError}
    (failed : (c.startFrom current t).1 = .error e) : (c.startFrom current t).2 = c := by
  unfold startFrom at failed ⊢
  cases found : current.bind c.task? with
  | none => rfl
  | some r =>
    cases attached : r.attached with
    | true =>
      simp only [found, attached, if_true] at failed ⊢
      exact h.start_error failed
    | false => simp [attached]

/-! ### Mailboxes -/

theorem keeps_setBox (c : Commons) (id : MailboxId) (m : Mailbox Value) :
    Keeps away c (c.setBox id m) :=
  (deals_setBox c id m).keeps

theorem keeps_tryPut (c : Commons) (id : MailboxId) (v : Value) :
    Keeps away c (c.tryPut id v).2 :=
  (deals_tryPut c id v).keeps

theorem keeps_putNb (c : Commons) (id : MailboxId) (v : Value) :
    Keeps away c (c.putNb id v).2 :=
  (deals_putNb c id v).keeps

theorem keeps_getNb (c : Commons) (id : MailboxId) : Keeps away c (c.getNb id).2 :=
  (deals_getNb c id).keeps

theorem keeps_advance (c : Commons) (time : Nat) : Keeps away c (c.advance time) :=
  (deals_advance c time).keeps

theorem keeps_stopListening (c : Commons) (f : Fiber) : Keeps away c (c.stopListening f).1 :=
  (Deals.elsewhere (elsewhere_stopListening c f)).keeps

/-- Whatever a body asks for keeps tasks in order. -/
theorem keeps_perform (op : Op) (c : Commons) (f : Fiber) :
    Keeps away c (op.perform c f).2.1 :=
  (deals_perform op c f).keeps

theorem keeps_runTimed {σ α : Type} (d : Drive σ α) (left : Nat) (s : Scene σ) :
    Keeps away s.commons (d.runTimed left s).2.commons :=
  (deals_runTimed d left s).keeps

/-! ### Ends -/

theorem keeps_notifyExit (c : Commons) (message : ExitMessage) (e : ExitBoxId) :
    Keeps away c (c.notifyExit message e) :=
  (deals_notifyExit c message e).keeps

/-- Who is to be informed of the end of a task has nothing to do with where it stands. -/
theorem keeps_informed (here : c.task? t = some r) (informed : List ExitBoxId) :
    Keeps away c (c.setTask t { r with informed }) := by
  intro h
  refine ⟨h.change here ?_ h.nodup ?_ (h.apart t) ?_, evolves_setTask here ⟨id, id, fun _ => id⟩⟩
  · obtain ⟨created, live, done⟩ := h.sound t r here
    exact ⟨created, live, done⟩
  · rw [← h.running_iff t, status?, here]
    exact Option.some_inj.symm
  · exact fun u _ => ⟨Iff.rfl, Iff.rfl⟩

theorem keeps_informOnExit (c : Commons) (t : TaskId) (e : ExitBoxId) :
    Keeps away c (c.informOnExit t e) := by
  unfold informOnExit
  split
  · exact Keeps.refl c
  · rename_i r here
    split
    · exact keeps_notifyExit c _ e
    · exact keeps_informed here _

theorem keeps_takeExit? {message : ExitMessage} {e : ExitBoxId}
    (take : c.takeExit? e = some (message, c')) : Keeps away c c' :=
  (deals_takeExit? take).keeps

/-- The end of a drive changes the record of its task, which comes home. -/
theorem Orderly.home (h : c.Orderly away) (here : c.task? t = some r₀) (gone : away t)
    (only : ∀ u, away' u ↔ away u ∧ u ≠ t) (sound : r.Sound) (rests : r.status ≠ .running) :
    (c.setTask t r).Orderly away' := by
  have back : ¬ away' t := fun gone => ((only t).1 gone).2 rfl
  refine h.change here sound h.nodup ?_ (fun gone => absurd gone back) ?_
  · exact iff_of_false rests (not_or.2 ⟨h.apart t gone, back⟩)
  · intro u ne
    exact ⟨Iff.rfl, (only u).trans (and_iff_left ne)⟩

/-- The record of a task that is away. -/
theorem Orderly.running (h : c.Orderly away) (gone : away t) :
    ∃ r, c.task? t = some r ∧ r.done = false ∧ r.started = true ∧ r.Sound := by
  obtain ⟨r, here, running⟩ := status?_eq_some_iff.1 ((h.running_iff t).2 (Or.inr gone))
  obtain ⟨done, started, -⟩ := TaskRecord.status_eq_running_iff.1 running
  exact ⟨r, here, done, started, h.sound t r here⟩

/-- A task that is away comes home when it ends. -/
theorem Orderly.ended (h : c.Orderly away) (gone : away t)
    (only : ∀ u, away' u ↔ away u ∧ u ≠ t) (here : c.task? t = some r) (result : TaskResult) :
    (c.setTask t (r.ended result)).Orderly away' ∧ c.Evolves (c.setTask t (r.ended result)) := by
  obtain ⟨r', there, done, started, sound⟩ := h.running gone
  obtain rfl : r = r' := Option.some.inj (here.symm.trans there)
  obtain ⟨-, none⟩ := sound.live started done
  constructor
  · refine h.home here gone only ⟨?_, ?_, ?_⟩ (by simp [TaskRecord.status, TaskRecord.ended])
    · exact fun fresh => absurd (fresh.symm.trans started) Bool.false_ne_true
    · exact fun _ live => absurd live.symm Bool.false_ne_true
    · exact fun _ => ⟨rfl, rfl⟩
  · refine evolves_setTask here ⟨id, fun _ => rfl, ?_⟩
    intro earlier given
    rw [none] at given
    cases given

theorem finish_eq (here : c.task? t = some r) (result : TaskResult) :
    c.finish t result = r.informed.foldl (fun c e => c.notifyExit { task := t, result } e)
      (c.setTask t (r.ended result)) := by
  unfold finish
  rw [here]
  rfl

/-- After the end of a task others are informed. -/
theorem deals_finish (here : c.task? t = some r) (result : TaskResult) :
    (c.setTask t (r.ended result)).Deals (c.finish t result) := by
  rw [finish_eq here]
  exact List.foldlRecOn _ _ (.refl _) fun c' before e _ =>
    before.trans (deals_notifyExit c' _ e)

/-- A task that ends stays ended while others are informed. -/
theorem keeps_finish (here : c.task? t = some r) (result : TaskResult) :
    Keeps away (c.setTask t (r.ended result)) (c.finish t result) :=
  (deals_finish here result).keeps

theorem Orderly.finish (h : c.Orderly away) (gone : away t)
    (only : ∀ u, away' u ↔ away u ∧ u ≠ t) (result : TaskResult) :
    (c.finish t result).Orderly away' ∧ c.Evolves (c.finish t result) := by
  obtain ⟨r, here, -⟩ := h.running gone
  obtain ⟨orderly, later⟩ := h.ended gone only here result
  obtain ⟨orderly', later'⟩ := keeps_finish here result orderly
  exact ⟨orderly', later.trans later'⟩

theorem Orderly.status?_finish (h : c.Orderly away) (gone : away t)
    (only : ∀ u, away' u ↔ away u ∧ u ≠ t) (result : TaskResult) :
    (c.finish t result).status? t = some .done := by
  obtain ⟨r, here, -⟩ := h.running gone
  obtain ⟨orderly, -⟩ := h.ended gone only here result
  obtain ⟨-, later, -⟩ := keeps_finish here result orderly
  obtain ⟨r', there, becomes⟩ := later t (r.ended result) (by rw [task?_setTask here, if_pos rfl])
  exact status?_eq_some_iff.2 ⟨r', there, TaskRecord.status_eq_done_iff.2 (becomes.done rfl)⟩

/-- A task that is away comes home when it pauses. -/
theorem Orderly.paused (h : c.Orderly away) (gone : away t)
    (only : ∀ u, away' u ↔ away u ∧ u ≠ t) (here : c.task? t = some r) (why : PauseReason) :
    (c.paused t r why).Orderly away' ∧ c.Evolves (c.paused t r why) := by
  obtain ⟨r', there, done, started, sound⟩ := h.running gone
  obtain rfl : r = r' := Option.some.inj (here.symm.trans there)
  refine ⟨h.home here gone only ⟨?_, ?_, ?_⟩ ?_, evolves_setTask here ⟨id, id, fun _ => id⟩⟩
  · exact fun fresh => absurd (fresh.symm.trans started) Bool.false_ne_true
  · exact fun _ _ => sound.live started done
  · exact fun ended => absurd (done.symm.trans ended) Bool.false_ne_true
  · simp [TaskRecord.status_eq_running_iff]

theorem Orderly.conclude (h : c.Orderly away) (gone : away t)
    (only : ∀ u, away' u ↔ away u ∧ u ≠ t) {reason : Option PauseReason}
    (lasts : (reason.any (·.isDone)) = false) :
    (TaskPool.conclude c t .pending reason).Orderly away' ∧
      c.Evolves (TaskPool.conclude c t .pending reason) := by
  obtain ⟨r, here, -⟩ := h.running gone
  obtain ⟨orderly, later⟩ := h.paused gone only here (reason.getD .yielded)
  rw [conclude_pending here lasts]
  split
  · exact ⟨orderly, later⟩
  · obtain ⟨orderly', later'⟩ := keeps_resume _ t orderly
    exact ⟨orderly', later.trans later'⟩

/-- After a drive its task is not away any more. -/
theorem Orderly.endDrive {σ : Type} {s : TaskPool σ} {e : DriveEnd} {scene : Scene σ}
    (h : scene.commons.Orderly away) (gone : away t) (only : ∀ u, away' u ↔ away u ∧ u ≠ t) :
    (s.endDrive t (.finished e) scene).2.commons.Orderly away' ∧
      scene.commons.Evolves (s.endDrive t (.finished e) scene).2.commons := by
  obtain ⟨result, same⟩ | ⟨-, lasts, same⟩ := endDrive_cases s t e scene
  · obtain ⟨quiet, later⟩ := keeps_stopListening scene.commons scene.fiber h
    obtain ⟨orderly, later'⟩ := quiet.finish gone only result
    rw [same]
    exact ⟨orderly, later.trans later'⟩
  · rw [same]
    exact h.conclude gone only lasts

/-! ### Beginnings -/

/-- The task that a worker takes out of the queue is away. -/
theorem Orderly.pop (h : c.Orderly away) {rest : List TaskId} (queue : c.queue = t :: rest) :
    ({ c with queue := rest } : Commons).Orderly (fun u => away u ∨ u = t) where
  sound := h.sound
  nodup := (List.nodup_cons.1 (queue ▸ h.nodup)).2
  running_iff u := by
    refine (h.running_iff u).trans ?_
    rw [queue, List.mem_cons, or_comm (a := u = t), or_assoc, or_comm (a := u = t)]
  apart u gone := by
    have absent := (List.nodup_cons.1 (queue ▸ h.nodup)).1
    rcases gone with gone | rfl
    · exact fun member => h.apart u gone (by rw [queue]; exact List.mem_cons_of_mem t member)
    · exact absent

theorem task?_addTask (c : Commons) (u : TaskId) :
    c.addTask.2.task? u = if u = c.addTask.1 then some .fresh else c.task? u := by
  unfold addTask task?
  obtain ⟨number⟩ := u
  simp only [TaskId.mk.injEq]
  by_cases zero : number = 0
  · subst zero
    rfl
  · rw [if_neg zero, if_neg zero, List.getElem?_append]
    split_ifs with lt last last
    · omega
    · rfl
    · subst last
      simp
    · rw [List.getElem?_eq_none (by simp; omega), List.getElem?_eq_none (by omega)]

theorem task?_addTask_new (c : Commons) : c.task? c.addTask.1 = none := by
  unfold addTask task?
  rw [if_neg (Nat.succ_ne_zero _)]
  exact List.getElem?_eq_none (Nat.le_refl _)

theorem Orderly.addTask (h : c.Orderly away) :
    c.addTask.2.Orderly away ∧ c.Later c.addTask.2 := by
  have new : c.task? c.addTask.1 = none := task?_addTask_new c
  refine ⟨⟨?_, h.nodup, ?_, h.apart⟩, ?_⟩
  · intro t r here
    rw [task?_addTask] at here
    split at here
    · cases here
      exact TaskRecord.sound_fresh
    · exact h.sound t r here
  · intro t
    rw [← show t ∈ c.queue ↔ t ∈ c.addTask.2.queue from Iff.rfl, ← h.running_iff t]
    unfold status?
    rw [task?_addTask]
    split
    · rename_i same
      rw [same, new]
      exact iff_of_false nofun nofun
    · exact Iff.rfl
  · intro t r here
    refine ⟨r, ?_, .refl r⟩
    rw [task?_addTask, if_neg]
    · exact here
    · rintro rfl
      rw [new] at here
      cases here

end Commons

end Resumable
