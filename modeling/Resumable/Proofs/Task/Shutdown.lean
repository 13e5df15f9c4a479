import Mathlib.Order.Filter.AtTopBot.Basic
import Mathlib.Order.Filter.Finite
import Mathlib.Order.WellFounded
import Resumable.Proofs.Task.Gate

/-!
# After a shutdown

Once the executor is shut down, the queue only gets shorter.  What is taken out of it is
driven, and nothing else is (`Gate.Next.shut_cases`).  A task that was not started stays so,
whoever wants to start it (`Gate.Sound.unstarted_next`).

`Gate.Shutdown` is a history without end that begins with the shutdown, in which drives end,
none breaks the rules, and the workers do not rest while the queue has tasks.  There comes a
time from which on the queue is empty, nobody is driven and nothing is left half-running
(`Gate.Shutdown.strands_nothing`).

`TaskPool.drain_shut` is the same for the one scheduler of a pool.
-/

namespace Resumable

namespace Gate

variable {k k' k'' : Gate} {t u : TaskId}

/-! ## One step -/

/-- After a shutdown a worker takes the next task out of the queue, or the queue stays as it is
and no drive begins. -/
theorem Next.shut_cases (step : Next k k') (shut : k.commons.closed = true) :
    k'.commons.closed = true ∧
      ((∃ t, k.commons.queue = t :: k'.commons.queue ∧ k'.begun = k.begun ++ [t]) ∨
        k'.commons.queue = k.commons.queue ∧ k'.begun = k.begun ∧
          ∀ t, k'.post t = .driven → k.post t = .driven) := by
  have calm : ∀ {t : TaskId} {post : Post}, post ≠ .driven →
      ∀ u, Function.update k.post t post u = .driven → k.post u = .driven := by
    intro t post other u driven
    rw [Function.update_apply] at driven
    split at driven
    · exact absurd driven other
    · exact driven
  cases step with
  | elsewhere apart => exact ⟨apart.closed shut, Or.inr ⟨apart.queue, rfl, fun _ => id⟩⟩
  | accept handed taken =>
    -- the executor does not accept
    rw [Commons.schedule?_eq_some_iff, Commons.accepts, shut] at taken
    cases taken.1
  | @begin t queue next => exact ⟨shut, Or.inl ⟨t, next, rfl⟩⟩
  | pause driven here why => exact ⟨shut, Or.inr ⟨rfl, rfl, calm nofun⟩⟩
  | finish driven here result => exact ⟨shut, Or.inr ⟨rfl, rfl, calm nofun⟩⟩
  | fall driven => exact ⟨shut, Or.inr ⟨rfl, rfl, calm nofun⟩⟩
  | _ => exact ⟨shut, Or.inr ⟨rfl, rfl, fun _ => id⟩⟩

/-- Between two moments after a shutdown some tasks of the queue are driven, in order. -/
structure Drains (k k' : Gate) : Prop where
  closed : k'.commons.closed = true
  done : ∃ done, k.commons.queue = done ++ k'.commons.queue ∧ k'.begun = k.begun ++ done

theorem Drains.refl (shut : k.commons.closed = true) : k.Drains k :=
  ⟨shut, [], rfl, (List.append_nil _).symm⟩

theorem Drains.next (h : k.Drains k') (step : Next k' k'') : k.Drains k'' := by
  obtain ⟨shut, done, queue, begun⟩ := h
  obtain ⟨shut', ⟨t, taken, begins⟩ | ⟨same, calm, -⟩⟩ := step.shut_cases shut
  · refine ⟨shut', done ++ [t], ?_, ?_⟩
    · rw [queue, taken, List.append_assoc]
      rfl
    · rw [begins, begun, List.append_assoc]
  · exact ⟨shut', done, by rw [queue, same], by rw [calm, begun]⟩

/-! ## Tasks that were not started -/

/-- A task that was not started, or is just being started. -/
def Unstarted (k : Gate) (t : TaskId) : Prop :=
  k.commons.status? t = some .created ∨ ∃ refused, k.handed t = some ⟨.start, refused⟩

/-- Nobody starts a task after a shutdown. -/
theorem Sound.unstarted_next (h : k.Sound) (step : Next k k') (shut : k.commons.closed = true)
    (unstarted : k.Unstarted t) : k'.Unstarted t := by
  have resting : k.commons.status? t = some .created → ∀ {u : TaskId}, k.Away u → t ≠ u := by
    rintro created u gone rfl
    cases created.symm.trans ((h.orderly.running_iff t).2 (Or.inr gone))
  cases step with
  | elsewhere apart =>
    refine unstarted.imp_left fun created => ?_
    unfold Commons.status? Commons.task? at created ⊢
    rwa [apart.tasks]
  | spawn =>
    refine unstarted.imp_left fun created => ?_
    obtain ⟨r, here, stage⟩ := Commons.status?_eq_some_iff.1 created
    refine Commons.status?_eq_some_iff.2 ⟨r, ?_, stage⟩
    rw [Commons.task?_addTask, if_neg]
    · exact here
    · rintro rfl
      cases (Commons.task?_addTask_new _).symm.trans here
  | @inform u r here informed =>
    refine unstarted.imp_left fun created => ?_
    rw [Commons.status?_setTask here]
    split
    · rename_i same
      rwa [same, Commons.status?, here] at created
    · exact created
  | @hand u r errand here fits =>
    by_cases same : t = u
    · subst same
      rcases unstarted with created | ⟨refused, handed⟩
      · cases errand with
        | start => exact Or.inr ⟨false, Function.update_self ..⟩
        | resume =>
          rw [Commons.status?, here, Option.map_some, show r.status = .paused from fits] at created
          cases created
      · exact absurd (away_of_handed handed) (h.not_away_of_fits here fits).2
    · rcases unstarted with created | ⟨refused, handed⟩
      · exact Or.inl ((Commons.status?_setTask here).trans ((if_neg same).trans created))
      · exact Or.inr ⟨refused, (Function.update_of_ne same _ _).trans handed⟩
  | accept handed taken =>
    rw [Commons.schedule?_eq_some_iff, Commons.accepts, shut] at taken
    cases taken.1
  | @refuse u errand handed refused =>
    rcases unstarted with created | ⟨refused, starting⟩
    · exact Or.inl created
    · by_cases same : t = u
      · subst same
        cases handed.symm.trans starting
        exact Or.inr ⟨true, Function.update_self ..⟩
      · exact Or.inr ⟨refused, (Function.update_of_ne same _ _).trans starting⟩
  | @takeBack u r errand handed here =>
    rcases unstarted with created | ⟨refused, starting⟩
    · have ne := resting created (away_of_handed handed)
      exact Or.inl ((Commons.status?_setTask here).trans ((if_neg ne).trans created))
    · by_cases same : t = u
      · subst same
        cases handed.symm.trans starting
        obtain ⟨running, sound⟩ := h.record_running (away_of_handed handed) here
        exact Or.inl ((Commons.status?_setTask here).trans ((if_pos rfl).trans
          (congrArg some (Errand.start.sound_undo sound running).2)))
      · exact Or.inr ⟨refused, (Function.update_of_ne same _ _).trans starting⟩
  | begin next => exact unstarted
  | @pause u r driven here why =>
    refine unstarted.imp_left fun created => ?_
    have ne := resting created (away_of_driven driven)
    exact (Commons.status?_setTask here).trans ((if_neg ne).trans created)
  | @finish u r driven here result =>
    refine unstarted.imp_left fun created => ?_
    have ne := resting created (away_of_driven driven)
    exact (Commons.status?_setTask here).trans ((if_neg ne).trans created)
  | fall driven => exact unstarted

/-! ## A history -/

/-- A history that begins with the shutdown of the executor. -/
structure Shutdown (k : ℕ → Gate) : Prop where
  reached : Reaches initial (k 0)
  shut : (k 0).commons.closed = true
  steps : ∀ i, k (i + 1) = k i ∨ Next (k i) (k (i + 1))
  /-- No drive breaks the rules. -/
  upright : ∀ i t, (k i).post t ≠ .fallen
  /-- Every drive comes to its end. -/
  ends : ∀ i t, (k i).post t = .driven → ∃ j, i ≤ j ∧ (k j).post t ≠ .driven
  /-- The workers do not rest while there are tasks in the queue. -/
  busy : ∀ i, ∃ j, i ≤ j ∧ ((k j).commons.queue = [] ∨ ∃ t, (k j).post t = .driven)

namespace Shutdown

variable {k : ℕ → Gate} (h : Shutdown k) {i j n : ℕ}
include h

/-- What every step keeps holds from some moment on. -/
theorem carry {P : Gate → Prop} (keeps : ∀ i, n ≤ i → P (k i) → Next (k i) (k (i + 1)) →
    P (k (i + 1))) (start : P (k n)) : ∀ i, n ≤ i → P (k i) := by
  intro i late
  induction i, late using Nat.le_induction with
  | base => exact start
  | succ i late ih =>
    rcases h.steps i with same | step
    · rw [same]
      exact ih
    · exact keeps i late ih step

theorem sound (i : ℕ) : (k i).Sound :=
  h.carry (P := Sound) (fun _ _ sound step => sound.next step)
    (sound_initial.reaches h.reached) i (Nat.zero_le i)

theorem closed (i : ℕ) : (k i).commons.closed = true :=
  h.carry (P := fun k => k.commons.closed = true)
    (fun _ _ shut step => (step.shut_cases shut).1) h.shut i (Nat.zero_le i)

theorem drains (late : i ≤ j) : (k i).Drains (k j) :=
  h.carry (P := (k i).Drains) (fun _ _ drains step => drains.next step) (.refl (h.closed i)) j late

theorem unstarted {t : TaskId} (unstarted : (k i).Unstarted t) (late : i ≤ j) :
    (k j).Unstarted t :=
  h.carry (P := fun k => k.Unstarted t)
    (fun j _ unstarted step => (h.sound j).unstarted_next step (h.closed j) unstarted)
    unstarted j late

/-- A task that has been started and is not handed over is paused or done, when the queue is
empty and it is not driven. -/
theorem rests {t : TaskId} {r : TaskRecord} (empty : (k i).commons.queue = [])
    (home : (k i).post t = .home) (idle : (k i).handed t = none)
    (here : (k i).commons.task? t = some r) (started : r.started = true) :
    r.status = .paused ∨ r.status = .done := by
  have still : r.status ≠ .running := by
    intro running
    rcases ((h.sound i).orderly.running_iff t).1 (Commons.status?_eq_some_iff.2 ⟨r, here, running⟩)
      with queued | gone
    · rw [empty] at queued
      cases queued
    · exact gone.elim (absurd home) (absurd idle)
  cases stage : r.status with
  | created =>
    obtain ⟨-, fresh⟩ := TaskRecord.status_eq_created_iff.1 stage
    cases fresh.symm.trans started
  | running => exact absurd stage still
  | paused => exact Or.inl rfl
  | done => exact Or.inr rfl

end Shutdown

namespace Trio

abbrev first : TaskId := ⟨1⟩
abbrev second : TaskId := ⟨2⟩
abbrev third : TaskId := ⟨3⟩

/-- Three tasks.  Two of them are started before the executor is shut down. -/
def commons : Commons :=
  { ((Commons.empty.addTask.2.addTask.2.addTask.2.start first).2.start second).2 with
    closed := true }

/-- The record of a task that was started. -/
def running : TaskRecord := Errand.start.mark .fresh

/-- The record of a task that has yielded. -/
def resting : TaskRecord := { running with reason := some .yielded, running := false }

/-- The first task begins, somebody wants to start the third one, and the first one pauses.
While the second one is driven, somebody wants to resume the first one. -/
def moves : List (Gate → Gate) :=
  [fun k => { k.set first { k.commons with queue := [second] } .driven with
      begun := k.begun ++ [first] },
    fun k => k.turn third (k.commons.setTask third running) (some ⟨.start, false⟩),
    fun k => k.turn third k.commons (some ⟨.start, true⟩),
    fun k => k.turn third (k.commons.setTask third (Errand.start.undo running)) none,
    fun k => k.set first (k.commons.paused first running .yielded) .home,
    fun k => { k.set second { k.commons with queue := [] } .driven with
      begun := k.begun ++ [second] },
    fun k => k.turn first (k.commons.setTask first (Errand.resume.mark resting))
      (some ⟨.resume, false⟩),
    fun k => k.turn first k.commons (some ⟨.resume, true⟩),
    fun k => k.set second (k.commons.setTask second (running.ended (.ok .unit))) .home,
    fun k => k.turn first
      (k.commons.setTask first (Errand.resume.undo (Errand.resume.mark resting))) none]

def moment (i : ℕ) : Gate :=
  (moves.take i).foldl (fun k move => move k) { initial with commons }

theorem reached : Reaches initial (moment 0) := by
  have spawned : Reaches initial
      { initial with commons := Commons.empty.addTask.2.addTask.2.addTask.2 } :=
    ((Relation.ReflTransGen.single .spawn).tail .spawn).tail .spawn
  have deals : Commons.empty.addTask.2.addTask.2.addTask.2.Deals commons :=
    ((Commons.Deals.single (.start first)).trans (.single (.start second))).trans
      (.elsewhere ⟨rfl, rfl, fun _ => rfl⟩)
  exact spawned.trans ((sound_initial.reaches spawned).reaches_deals deals)

theorem moment_late (i : ℕ) : moment (i + 10) = moment 10 := by
  unfold moment
  rw [List.take_of_length_le (show moves.length ≤ i + 10 from Nat.le_add_left 10 i),
    List.take_of_length_le (show moves.length ≤ 10 from Nat.le_refl 10)]

theorem steps : ∀ i, moment (i + 1) = moment i ∨ Next (moment i) (moment (i + 1))
  | 0 => Or.inr (.begin rfl)
  | 1 => Or.inr (.hand .start rfl (show TaskRecord.fresh.started = false from rfl))
  | 2 => Or.inr (.refuse rfl rfl)
  | 3 => Or.inr (.takeBack rfl rfl)
  | 4 => Or.inr (.pause rfl rfl .yielded)
  | 5 => Or.inr (.begin rfl)
  | 6 => Or.inr (.hand .resume rfl (show resting.status = .paused from rfl))
  | 7 => Or.inr (.refuse rfl rfl)
  | 8 => Or.inr (.finish rfl rfl (.ok .unit))
  | 9 => Or.inr (.takeBack rfl rfl)
  | i + 10 => Or.inl ((moment_late (i + 1)).trans (moment_late i).symm)

/-- One task at a time is driven, until both have been. -/
theorem post_moment : ∀ i, (moment i).post = (fun _ => .home) ∨
    i < 10 ∧ ∃ t, (moment i).post = Function.update (fun _ => .home) t .driven := by
  have back : ∀ t : TaskId, Function.update (Function.update (fun _ => Post.home) t .driven) t
      .home = fun _ => .home := fun t => by
    rw [Function.update_idem]
    exact Function.update_eq_self t _
  have first : (moment 5).post = fun _ => .home := back first
  have second' : (moment 6).post = Function.update (fun _ => .home) second .driven :=
    congrArg (fun f : TaskId → Post => Function.update f second .driven) first
  have both : (moment 9).post = fun _ => .home :=
    (congrArg (fun f : TaskId → Post => Function.update f second .home) second').trans (back second)
  intro i
  match i with
  | 0 => exact Or.inl rfl
  | 1 | 2 | 3 | 4 => exact Or.inr ⟨by decide, _, rfl⟩
  | 5 => exact Or.inl first
  | 6 | 7 | 8 => exact Or.inr ⟨by decide, _, second'⟩
  | 9 => exact Or.inl both
  | i + 10 => exact Or.inl ((congrArg Gate.post (moment_late i)).trans both)

theorem driven_moment {i : ℕ} {t : TaskId} (away : (moment i).post t ≠ .home) :
    (moment i).post t = .driven ∧ i < 10 := by
  rcases post_moment i with home | ⟨lt, u, post⟩
  · exact absurd (congrFun home t) away
  · rw [post, Function.update_apply] at away ⊢
    split
    · exact ⟨rfl, lt⟩
    · rename_i ne
      exact absurd (if_neg ne) away

theorem shutdown : Shutdown moment where
  reached := reached
  shut := rfl
  steps := steps
  upright i t fallen := by
    obtain ⟨driven, -⟩ := driven_moment (i := i) (t := t) (by rw [fallen]; exact nofun)
    cases fallen.symm.trans driven
  ends i t _ := ⟨i + 10, Nat.le_add_right i 10, fun driven => by
    obtain ⟨-, lt⟩ := driven_moment (i := i + 10) (t := t) (by rw [driven]; exact nofun)
    omega⟩
  busy i := ⟨i + 10, Nat.le_add_right i 10, Or.inl (by rw [moment_late]; rfl)⟩

end Trio

end Gate

/-! ## One scheduler -/

namespace TaskPool

variable {σ : Type} (exec : σ → Drive σ DriveEnd)

/-- The end of a drive puts nothing in the queue after a shutdown. -/
theorem endDrive_shut (s : TaskPool σ) (t : TaskId) (ending : Ending DriveEnd) (scene : Scene σ)
    (shut : scene.commons.closed = true) :
    (s.endDrive t ending scene).2.commons.closed = true ∧
      (s.endDrive t ending scene).2.commons.queue = scene.commons.queue := by
  obtain ⟨closed, same⟩ :=
    (Commons.Deals.elsewhere (Commons.elsewhere_stopListening scene.commons scene.fiber)).shut shut
  cases ending with
  | finished e =>
    obtain ⟨result, ends⟩ | ⟨-, lasts, ends⟩ := Commons.endDrive_cases s t e scene
    · rw [ends, ← same]
      cases here : (scene.commons.stopListening scene.fiber).1.task? t with
      | none =>
        unfold Commons.finish
        rw [here]
        exact ⟨closed, rfl⟩
      | some r => exact (Commons.deals_finish here result).shut closed
    · rw [ends]
      cases here : scene.commons.task? t with
      | none =>
        have stays : conclude scene.commons t .pending scene.fiber.reason = scene.commons := by
          generalize scene.fiber.reason = reason at lasts
          unfold conclude
          rcases reason with - | (- | - | - | result | -)
          case some.done => cases lasts
          all_goals simp only [here]
        rw [stays]
        exact ⟨shut, rfl⟩
      | some r =>
        rw [Commons.conclude_pending here lasts]
        split
        · exact ⟨shut, rfl⟩
        · exact (Commons.Deals.single (.resume t)).shut shut
  | violated message => exact ⟨closed, same⟩
  | diverged => exact ⟨shut, rfl⟩

/-- A drive puts nothing in the queue after a shutdown, whatever its body asks for. -/
theorem drive_shut (s : TaskPool σ) (t : TaskId) (shut : s.commons.closed = true) :
    (drive exec s t).2.commons.closed = true ∧
      (drive exec s t).2.commons.queue = s.commons.queue := by
  cases found : s.engine? t with
  | none =>
    unfold drive beginDrive?
    rw [found]
    exact ⟨shut, rfl⟩
  | some engine =>
    have deals : s.commons.Deals
        ((exec engine.body).runTimed Commons.pace (s.opening engine)).2.commons :=
      (Commons.Deals.elsewhere (Commons.elsewhere_stopListening s.commons engine.fiber)).trans
        (Commons.deals_runTimed (exec engine.body) Commons.pace (s.opening engine))
    obtain ⟨closed, same⟩ := deals.shut shut
    rw [drive_some found, ← same]
    exact endDrive_shut s t _ _ closed

/-- A scheduler that is shut down drives the tasks of its queue in order and no others, until
the queue is empty or a drive does not come to its end. -/
theorem drain_shut (limit : Nat) (s : TaskPool σ) (shut : s.commons.closed = true)
    (enough : s.commons.queue.length ≤ limit) :
    s.commons.queue = (drain exec limit s).1 ++ (drain exec limit s).2.2.commons.queue ∧
      ((drain exec limit s).2.1 = .finished () →
        (drain exec limit s).2.2.commons.queue = []) := by
  induction limit generalizing s with
  | zero =>
    have empty := List.length_eq_zero_iff.1 (Nat.le_zero.1 enough)
    exact ⟨rfl, fun _ => empty⟩
  | succ limit ih =>
    unfold drain step?
    cases queue : s.commons.queue with
    | nil => exact ⟨queue.symm, fun _ => queue⟩
    | cons t rest =>
      obtain ⟨closed, same⟩ := drive_shut exec (s.popped rest) t shut
      have next : { s with commons := { s.commons with queue := rest } } = s.popped rest := rfl
      simp only [next]
      rcases driven : drive exec (s.popped rest) t with ⟨ending, s'⟩
      rw [driven] at closed same
      replace same : s'.commons.queue = rest := same
      cases ending with
      | finished =>
        rw [queue, List.length_cons] at enough
        obtain ⟨order, done⟩ := ih s' closed (by rw [same]; omega)
        refine ⟨?_, done⟩
        rw [List.cons_append, ← order, same]
      | violated message => exact ⟨congrArg (t :: ·) same.symm, nofun⟩
      | diverged => exact ⟨congrArg (t :: ·) same.symm, nofun⟩

end TaskPool

end Resumable
