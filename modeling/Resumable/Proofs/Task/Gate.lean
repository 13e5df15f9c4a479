import Resumable.Proofs.Task.Shift

/-!
# Handing tasks over

A start and a resumption take three changes, and anything can happen between them: the task
is marked as running (`Gate.Next.hand`), the executor accepts or refuses it, which is decided
where the queue changes (`Gate.Next.accept`, `Gate.Next.refuse`), and if it was refused, the
marks are taken back (`Gate.Next.takeBack`).

`Gate` is a number of tasks with the hand-overs that are under way.  What bodies and others do
apart from tasks and the executor is not told.

* Tasks stay in order (`Gate.Sound.reaches`): one that is handed over is marked as running, but
  nobody drives it and it does not stand in the queue.
* Whatever tasks do on any number of workers can happen here (`Gate.reaches_of_shift`), with
  starts and resumptions at one go.
-/

namespace Resumable

/-! ## Errands -/

/-- Why a task is handed to the executor. -/
inductive Errand where
  | start
  | resume
  deriving DecidableEq

namespace Errand

variable {errand : Errand} {r : TaskRecord}

/-- What a task must be like to be handed over. -/
def Fits : Errand → TaskRecord → Prop
  | start, r => r.started = false
  | resume, r => r.status = .paused

/-- The record of a task that is handed over. -/
def mark : Errand → TaskRecord → TaskRecord
  | start, r => { r with started := true, running := true, attached := true }
  | resume, r => { r with running := true }

/-- The record of a task after a hand-over in vain. -/
def undo : Errand → TaskRecord → TaskRecord
  | start, r => { r with started := false, running := false, attached := false }
  | resume, r => { r with running := false }

theorem Fits.idle (fits : errand.Fits r) : r.status ≠ .running := by
  cases errand with
  | start => simp [TaskRecord.status_eq_running_iff, show r.started = false from fits]
  | resume => simp [show r.status = .paused from fits]

theorem Fits.live (fits : errand.Fits r) (sound : r.Sound) : r.done = false ∧ r.result = none := by
  cases errand with
  | start =>
    obtain ⟨-, done, -, none⟩ := sound.created fits
    exact ⟨done, none⟩
  | resume =>
    obtain ⟨done, started, -⟩ := TaskRecord.status_eq_paused_iff.1 fits
    exact ⟨done, (sound.live started done).2⟩

/-- A task that is handed over has an executor and is marked as running. -/
theorem Fits.mark (fits : errand.Fits r) (sound : r.Sound) :
    (errand.mark r).Sound ∧ (errand.mark r).status = .running ∧
      (errand.mark r).attached = true := by
  obtain ⟨done, none⟩ := fits.live sound
  have marked : (errand.mark r).started = true ∧ (errand.mark r).running = true ∧
      (errand.mark r).attached = true ∧ (errand.mark r).done = r.done ∧
      (errand.mark r).result = r.result := by
    cases errand with
    | start => exact ⟨rfl, rfl, rfl, rfl, rfl⟩
    | resume =>
      obtain ⟨-, started, -⟩ := TaskRecord.status_eq_paused_iff.1 fits
      exact ⟨started, rfl, (sound.live started done).1, rfl, rfl⟩
  obtain ⟨started, running, attached, same, result⟩ := marked
  refine ⟨⟨?_, fun _ _ => ⟨attached, result.trans none⟩, ?_⟩, ?_, attached⟩
  · exact fun fresh => absurd (fresh.symm.trans started) Bool.false_ne_true
  · exact fun ended => absurd ((same.trans done).symm.trans ended) Bool.false_ne_true
  · exact TaskRecord.status_eq_running_iff.2 ⟨same.trans done, started, running⟩

/-- The stage of a task after a hand-over in vain. -/
def stage : Errand → TaskStatus
  | start => .created
  | resume => .paused

/-- After a hand-over in vain a task is where it was. -/
theorem sound_undo (sound : r.Sound) (running : r.status = .running) (errand : Errand) :
    (errand.undo r).Sound ∧ (errand.undo r).status = errand.stage := by
  obtain ⟨done, started, -⟩ := TaskRecord.status_eq_running_iff.1 running
  obtain ⟨attached, none⟩ := sound.live started done
  cases errand with
  | start =>
    refine ⟨⟨fun _ => ⟨rfl, done, rfl, none⟩, nofun, fun ended => ?_⟩, ?_⟩
    · exact absurd (done.symm.trans ended) Bool.false_ne_true
    · exact TaskRecord.status_eq_created_iff.2 ⟨done, rfl⟩
  | resume =>
    refine ⟨⟨fun fresh => ?_, fun _ _ => ⟨attached, none⟩, fun ended => ?_⟩, ?_⟩
    · exact absurd (fresh.symm.trans started) Bool.false_ne_true
    · exact absurd (done.symm.trans ended) Bool.false_ne_true
    · exact TaskRecord.status_eq_paused_iff.2 ⟨done, started, rfl⟩

end Errand

/-- A hand-over that is under way. -/
structure Handover where
  errand : Errand
  /-- The executor has refused it. -/
  refused : Bool
  deriving DecidableEq

/-! ## What can happen -/

/-- Tasks with their executor. -/
structure Gate where
  commons : Commons
  post : TaskId → Post
  /-- The hand-overs that are under way. -/
  handed : TaskId → Option Handover
  /-- The tasks whose drives have begun, in order. -/
  begun : List TaskId

namespace Gate

variable {k k' k'' : Gate} {t u : TaskId} {r : TaskRecord} {errand : Errand} {refused : Bool}

def initial : Gate :=
  { commons := .empty, post := fun _ => .home, handed := fun _ => none, begun := [] }

/-- Another post of a task. -/
def set (k : Gate) (t : TaskId) (commons : Commons) (post : Post) : Gate :=
  { k with commons, post := Function.update k.post t post }

/-- Another stage of the hand-over of a task. -/
def turn (k : Gate) (t : TaskId) (commons : Commons) (handover : Option Handover) : Gate :=
  { k with commons, handed := Function.update k.handed t handover }

/-- One thing that happens. -/
inductive Next (k : Gate) : Gate → Prop
  /-- Something that has nothing to do with tasks, or the executor is shut down. -/
  | elsewhere {c : Commons} (apart : k.commons.Elsewhere c) : Next k { k with commons := c }
  | spawn : Next k { k with commons := k.commons.addTask.2 }
  /-- Somebody wants to be informed of the end of a task, or was. -/
  | inform {t : TaskId} {r : TaskRecord} (here : k.commons.task? t = some r)
      (informed : List ExitBoxId) :
    Next k { k with commons := k.commons.setTask t { r with informed } }
  /-- Somebody marks a task as running.  It is handed to its executor, if it has one. -/
  | hand {t : TaskId} {r : TaskRecord} (errand : Errand) (here : k.commons.task? t = some r)
      (fits : errand.Fits r) :
    Next k (k.turn t (k.commons.setTask t (errand.mark r))
      (if (errand.mark r).attached then some ⟨errand, false⟩ else none))
  /-- The executor takes a task. -/
  | accept {t : TaskId} {errand : Errand} {c : Commons} (handed : k.handed t = some ⟨errand, false⟩)
      (taken : k.commons.schedule? t = some c) : Next k (k.turn t c none)
  /-- The executor takes no tasks any more. -/
  | refuse {t : TaskId} {errand : Errand} (handed : k.handed t = some ⟨errand, false⟩)
      (refused : k.commons.schedule? t = none) :
    Next k (k.turn t k.commons (some ⟨errand, true⟩))
  /-- Whoever wanted to hand a task over takes the marks back. -/
  | takeBack {t : TaskId} {r : TaskRecord} {errand : Errand}
      (handed : k.handed t = some ⟨errand, true⟩) (here : k.commons.task? t = some r) :
    Next k (k.turn t (k.commons.setTask t (errand.undo r)) none)
  /-- A worker takes the next task out of the queue and begins to drive it. -/
  | begin {t : TaskId} {queue : List TaskId} (next : k.commons.queue = t :: queue) :
    Next k { k.set t { k.commons with queue } .driven with begun := k.begun ++ [t] }
  | pause {t : TaskId} {r : TaskRecord} (driven : k.post t = .driven)
      (here : k.commons.task? t = some r) (why : PauseReason) :
    Next k (k.set t (k.commons.paused t r why) .home)
  | finish {t : TaskId} {r : TaskRecord} (driven : k.post t = .driven)
      (here : k.commons.task? t = some r) (result : TaskResult) :
    Next k (k.set t (k.commons.setTask t (r.ended result)) .home)
  /-- A drive breaks the rules and takes its worker with it. -/
  | fall {t : TaskId} (driven : k.post t = .driven) : Next k (k.set t k.commons .fallen)

/-- Any number of things that happen, one after the other. -/
def Reaches : Gate → Gate → Prop := Relation.ReflTransGen Next

/-! ## Tasks stay in order -/

/-- A worker has a task, or had it when it came down, or the task is being handed over. -/
def Away (k : Gate) (t : TaskId) : Prop := k.post t ≠ .home ∨ k.handed t ≠ none

/-- Tasks are in order, and none is driven while it is handed over. -/
structure Sound (k : Gate) : Prop where
  orderly : k.commons.Orderly k.Away
  home : ∀ t, k.handed t ≠ none → k.post t = .home

theorem sound_initial : initial.Sound where
  orderly := Commons.orderly_empty.congr fun _ =>
    iff_of_false (not_or.2 ⟨fun gone => gone rfl, fun gone => gone rfl⟩) id
  home _ handed := absurd rfl handed

theorem away_of_driven (driven : k.post t = .driven) : k.Away t :=
  Or.inl (by rw [driven]; exact nofun)

theorem away_of_handed {handover : Handover} (handed : k.handed t = some handover) : k.Away t :=
  Or.inr (by rw [handed]; exact nofun)

namespace Sound

variable (h : k.Sound)
include h

/-- A task that is away is marked as running. -/
theorem running (gone : k.Away t) :
    ∃ r, k.commons.task? t = some r ∧ r.status = .running ∧ r.Sound := by
  obtain ⟨r, here, running⟩ :=
    Commons.status?_eq_some_iff.1 ((h.orderly.running_iff t).2 (Or.inr gone))
  exact ⟨r, here, running, h.orderly.sound t r here⟩

theorem record_running (gone : k.Away t) (here : k.commons.task? t = some r) :
    r.status = .running ∧ r.Sound := by
  obtain ⟨r', there, running, sound⟩ := h.running gone
  obtain rfl : r = r' := Option.some.inj (here.symm.trans there)
  exact ⟨running, sound⟩

/-- A task that fits an errand stands nowhere. -/
theorem not_away_of_fits (here : k.commons.task? t = some r) (fits : errand.Fits r) :
    t ∉ k.commons.queue ∧ ¬ k.Away t := by
  rw [← not_or, ← h.orderly.running_iff t, Commons.status?_eq_some_iff]
  rintro ⟨r', there, running⟩
  obtain rfl : r = r' := Option.some.inj (here.symm.trans there)
  exact fits.idle running

theorem not_handed_of_driven (driven : k.post t = .driven) : k.handed t = none := by
  by_contra handed
  cases driven.symm.trans (h.home t handed)

end Sound

/-- A task comes home from its drive. -/
theorem Sound.away_set_home (h : k.Sound) (driven : k.post t = .driven) (c : Commons) (u : TaskId) :
    (k.set t c .home).Away u ↔ k.Away u ∧ u ≠ t := by
  have other : k.handed u ≠ none → u ≠ t := by
    rintro handed rfl
    exact handed (h.not_handed_of_driven driven)
  unfold Away
  rw [or_and_right]
  exact or_congr (update_ne_iff_and k.post t u .home) (and_iff_left_of_imp other).symm

theorem Sound.home_set (h : k.Sound) (idle : k.handed t = none) (c : Commons) (post : Post)
    (u : TaskId) (handed : (k.set t c post).handed u ≠ none) :
    (k.set t c post).post u = .home := by
  have ne : u ≠ t := by
    rintro rfl
    exact handed idle
  exact (Function.update_of_ne ne _ _).trans (h.home u handed)

/-- A drive begins or goes on. -/
theorem away_set_stay (c : Commons) (post : Post) (stays : post ≠ .home) (u : TaskId) :
    (k.set t c post).Away u ↔ k.Away u ∨ u = t :=
  (or_congr_left (update_ne_iff_or k.post stays)).trans or_right_comm

/-- A hand-over is over. -/
theorem Sound.away_turn_none (h : k.Sound) (handed : k.handed t ≠ none) (c : Commons) (u : TaskId) :
    (k.turn t c none).Away u ↔ k.Away u ∧ u ≠ t := by
  have other : k.post u ≠ .home → u ≠ t := by
    rintro gone rfl
    exact gone (h.home u handed)
  unfold Away
  rw [or_and_right]
  exact or_congr (and_iff_left_of_imp other).symm (update_ne_iff_and k.handed t u none)

/-- A hand-over begins or goes on. -/
theorem away_turn_some (c : Commons) (handover : Handover) (u : TaskId) :
    (k.turn t c (some handover)).Away u ↔ k.Away u ∨ u = t :=
  (or_congr_right (update_ne_iff_or k.handed (Option.some_ne_none handover))).trans or_assoc.symm

theorem Sound.home_turn (h : k.Sound) (home : k.post t = .home) (c : Commons)
    (handover : Option Handover) (u : TaskId) (handed : (k.turn t c handover).handed u ≠ none) :
    (k.turn t c handover).post u = .home := by
  by_cases same : u = t
  · rw [same]
    exact home
  · refine h.home u ?_
    rw [← Function.update_of_ne same handover k.handed]
    exact handed

/-- Every step keeps tasks in order. -/
theorem Sound.next (h : k.Sound) (step : Next k k') : k'.Sound := by
  cases step with
  | elsewhere apart =>
    exact ⟨(Commons.keeps_same k.commons apart.tasks apart.queue h.orderly).1, h.home⟩
  | spawn => exact ⟨h.orderly.addTask.1, h.home⟩
  | inform here informed => exact ⟨(Commons.keeps_informed here informed h.orderly).1, h.home⟩
  | @hand t r errand here fits =>
    obtain ⟨outside, back⟩ := h.not_away_of_fits here fits
    obtain ⟨sound, running, attached⟩ := fits.mark (h.orderly.sound t r here)
    rw [if_pos attached]
    have home : k.post t = .home := not_not.1 (not_or.1 back).1
    refine ⟨h.orderly.change here sound h.orderly.nodup ?_ (fun _ => outside) fun u ne => ?_,
      h.home_turn home _ _⟩
    · exact iff_of_true running (Or.inr ((away_turn_some _ _ t).2 (Or.inr rfl)))
    · exact ⟨Iff.rfl, (away_turn_some _ _ u).trans (or_iff_left ne)⟩
  | @accept t errand c handed taken =>
    have given : k.handed t ≠ none := by rw [handed]; exact nofun
    have outside := h.orderly.apart t (away_of_handed handed)
    obtain ⟨r, here, running, sound⟩ := h.running (away_of_handed handed)
    obtain ⟨-, rfl⟩ := Commons.schedule?_eq_some_iff.1 taken
    refine ⟨?_, h.home_turn (h.home t given) _ _⟩
    rw [← Commons.setTask_self here]
    refine h.orderly.change here sound ?_ ?_ ?_ fun u ne => ?_
    · exact h.orderly.nodup.append (List.nodup_singleton t) (List.disjoint_singleton.2 outside)
    · exact iff_of_true running (Or.inl (by simp))
    · exact fun gone => absurd rfl ((h.away_turn_none given _ t).1 gone).2
    · exact ⟨by simp [ne, Commons.setTask], (h.away_turn_none given _ u).trans (and_iff_left ne)⟩
  | @refuse t errand handed refused =>
    refine ⟨h.orderly.congr fun u => (away_turn_some _ _ u).trans ?_,
      h.home_turn (h.home t (by rw [handed]; exact nofun)) _ _⟩
    exact or_iff_left_of_imp fun same => same ▸ away_of_handed handed
  | @takeBack t r errand handed here =>
    have given : k.handed t ≠ none := by rw [handed]; exact nofun
    obtain ⟨running, sound⟩ := h.record_running (away_of_handed handed) here
    obtain ⟨sound, stage⟩ := errand.sound_undo sound running
    refine ⟨h.orderly.home here (away_of_handed handed) (h.away_turn_none given _) sound ?_,
      h.home_turn (h.home t given) _ _⟩
    rw [stage]
    cases errand <;> exact nofun
  | @begin t queue next =>
    refine ⟨(h.orderly.pop next).congr fun u => ?_,
      h.home_set ?_ { k.commons with queue } .driven⟩
    · exact away_set_stay { k.commons with queue } .driven nofun u
    · by_contra given
      exact h.orderly.apart t (Or.inr given) (by rw [next]; exact List.mem_cons_self)
  | @pause t r driven here why =>
    exact ⟨(h.orderly.paused (away_of_driven driven) (h.away_set_home driven _) here why).1,
      h.home_set (h.not_handed_of_driven driven) _ _⟩
  | @finish t r driven here result =>
    exact ⟨(h.orderly.ended (away_of_driven driven) (h.away_set_home driven _) here result).1,
      h.home_set (h.not_handed_of_driven driven) _ _⟩
  | @fall t driven =>
    refine ⟨h.orderly.congr fun u => (away_set_stay k.commons .fallen nofun u).trans ?_,
      h.home_set (h.not_handed_of_driven driven) _ _⟩
    exact or_iff_left_of_imp fun same => same ▸ away_of_driven driven

theorem Sound.reaches (h : k.Sound) (run : Reaches k k') : k'.Sound := by
  induction run with
  | refl => exact h
  | tail _ step ih => exact ih.next step

/-! ## Operations at one go -/

namespace Sound

variable (h : k.Sound)
include h

/-- A task is handed over, and the executor takes it. -/
theorem reaches_queued (here : k.commons.task? t = some r) (fits : errand.Fits r)
    (accepts : k.commons.accepts = true) :
    Reaches k { k with commons := k.commons.queued t (errand.mark r) } := by
  have idle : k.handed t = none := not_not.1 (not_or.1 (h.not_away_of_fits here fits).2).2
  have marked : Next k _ := .hand errand here fits
  rw [if_pos (fits.mark (h.orderly.sound t r here)).2.2] at marked
  have taken : (k.commons.setTask t (errand.mark r)).schedule? t =
      some (k.commons.queued t (errand.mark r)) := by
    rw [Commons.schedule?_setTask, if_pos accepts]
  have accepted : Next (k.turn t (k.commons.setTask t (errand.mark r)) (some ⟨errand, false⟩)) _ :=
    .accept (Function.update_self ..) taken
  have cleared : Function.update (Function.update k.handed t (some ⟨errand, false⟩)) t none =
      k.handed := by
    rw [Function.update_idem, ← idle, Function.update_eq_self]
  have ends : (k.turn t (k.commons.setTask t (errand.mark r)) (some ⟨errand, false⟩)).turn t
      (k.commons.queued t (errand.mark r)) none =
      { k with commons := k.commons.queued t (errand.mark r) } := by
    unfold turn
    rw [cleared]
  rw [ends] at accepted
  exact (Relation.ReflTransGen.single marked).tail accepted

theorem reaches_deal {c : Commons} (deal : k.commons.Deal c) :
    Reaches k { k with commons := c } := by
  cases deal with
  | elsewhere apart => exact .single (.elsewhere apart)
  | start t =>
    obtain ⟨r, here, fresh, accepts, same⟩ | failed :
        (∃ r, k.commons.task? t = some r ∧ r.started = false ∧ k.commons.accepts = true ∧
          k.commons.start t = (.ok (), k.commons.queued t (Errand.start.mark r))) ∨
        ∃ e, (k.commons.start t).1 = .error e := by
      rcases k.commons.start_cases t with accepted | ⟨e, same⟩ | ⟨r, -, -, -, same⟩
      · exact Or.inl accepted
      · exact Or.inr ⟨e, congrArg Prod.fst same⟩
      · exact Or.inr ⟨_, congrArg Prod.fst same⟩
    · rw [same]
      exact h.reaches_queued here fresh accepts
    · obtain ⟨e, failed⟩ := failed
      rw [h.orderly.start_error failed]
      exact .refl
  | resume t =>
    obtain ⟨r, here, paused, accepts, same⟩ | same := h.orderly.resume_cases t
    · rw [same]
      have fits : Errand.resume.Fits r := paused
      exact h.reaches_queued here fits accepts
    · rw [same]
      exact .refl

/-- Whatever is made of starts and resumptions can happen. -/
theorem reaches_deals {c : Commons} (deals : k.commons.Deals c) :
    Reaches k { k with commons := c } := by
  induction deals with
  | refl => exact .refl
  | tail _ deal ih => exact ih.trans ((h.reaches ih).reaches_deal deal)

end Sound

/-- The tasks of a shift, none of which is being handed over. -/
def ofShift (k : Shift) (begun : List TaskId) : Gate :=
  { commons := k.commons, post := k.post, handed := fun _ => none, begun }

theorem sound_ofShift {k : Shift} (h : k.Sound) (begun : List TaskId) :
    (ofShift k begun).Sound where
  orderly := h.orderly.congr fun _ => or_iff_left fun handed => handed rfl
  home _ handed := absurd rfl handed

/-- What happens in a shift can happen here. -/
theorem reaches_of_next {k k' : Shift} (h : k.Sound) (step : Shift.Next k k')
    (begun : List TaskId) : ∃ begun', Reaches (ofShift k begun) (ofShift k' begun') := by
  have sound := sound_ofShift h begun
  have deals : ∀ {c : Commons}, k.commons.Deals c →
      Reaches (ofShift k begun) { ofShift k begun with commons := c } := sound.reaches_deals
  have quiet : ∀ t, Next (ofShift k begun) { ofShift k begun with commons := k.quiet t } :=
    fun t => .elsewhere (Commons.elsewhere_stopListening k.commons (k.fibers t))
  have stays : ∀ {t : TaskId}, k.post t = .driven → Function.update k.post t .driven = k.post :=
    fun driven => by rw [← driven, Function.update_eq_self]
  cases step with
  | outside change =>
    refine ⟨begun, ?_⟩
    cases change with
    | spawn => exact .single .spawn
    | start t => exact deals (.single (.start t))
    | ask op detached => exact deals (Commons.deals_perform op k.commons _)
    | tryPut box v => exact deals (Commons.deals_tryPut k.commons box v)
    | advance time => exact deals (Commons.deals_advance k.commons time)
    | refuse refusing => exact .single (.elsewhere ⟨rfl, rfl, id⟩)
    | makeBox made => exact .single (.elsewhere ⟨rfl, rfl, id⟩)
    | makeExitBox made => exact .single (.elsewhere ⟨rfl, rfl, id⟩)
    | attend here consumer producers => exact .single (.elsewhere ⟨rfl, rfl, id⟩)
  | @begin t queue next =>
    have began : Next (ofShift k begun) _ := .begin next
    exact ⟨begun ++ [t], (Relation.ReflTransGen.single began).tail
      (.elsewhere (Commons.elsewhere_stopListening { k.commons with queue } (k.fibers t)))⟩
  | @request t driven op =>
    refine ⟨begun, ?_⟩
    unfold ofShift Shift.set
    simp only [stays driven]
    exact deals (Commons.deals_perform op k.commons (k.fibers t))
  | pause driven here why reason => exact ⟨begun, .single (.pause driven here why)⟩
  | @finish t r driven here result reason =>
    exact ⟨begun, (Relation.ReflTransGen.single (quiet t)).tail (.finish driven here result)⟩
  | @fall t driven =>
    exact ⟨begun, (Relation.ReflTransGen.single (quiet t)).tail (.fall driven)⟩
  | register here unended box => exact ⟨begun, .single (.inform here _)⟩
  | late here given box => exact ⟨begun, .refl⟩
  | @deliver n before after parts =>
    exact ⟨begun, deals (Commons.deals_notifyExit k.commons n.message n.box)⟩
  | stray n => exact ⟨begun, deals (Commons.deals_notifyExit k.commons n.message n.box)⟩
  | takeExit take => exact ⟨begun, deals (Commons.deals_takeExit? take)⟩

/-- Whatever tasks do on any number of workers can happen here. -/
theorem reaches_of_shift {k : Shift} (run : Shift.Reaches .initial k) :
    ∃ begun, Reaches initial (ofShift k begun) := by
  induction run with
  | refl => exact ⟨[], .refl⟩
  | tail run step ih =>
    obtain ⟨begun, ih⟩ := ih
    obtain ⟨begun', next⟩ := reaches_of_next (Shift.sound_initial.reaches run).1 step begun
    exact ⟨begun', ih.trans next⟩

end Gate

end Resumable
