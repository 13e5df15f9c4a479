import Resumable.Proofs.Task.Shift

/-!
# Tasks know where they wait

A mailbox is tidy (`Mailbox.Tidy`) when nobody waits for a message that is there, no task waits
for space twice, and every task that waits knows it.  What a task knows is the list of its
fiber, and with it a task leaves all mailboxes when it is driven again and when it ends.

`Shift.attentive` says that mailboxes stay tidy, that no task waits when it is done, and that a
task that may not wait for a message changes nothing.
-/

namespace Resumable

/-! ## One mailbox -/

namespace Mailbox

variable {α : Type} {m m' : Mailbox α} {a : α} {t : TaskId} {woken : Option TaskId}
  {listens listens' : TaskId → Prop}

/-- Those who wait on a mailbox have a reason to, and know it. -/
structure Tidy (m : Mailbox α) (listens : TaskId → Prop) : Prop where
  empty : m.consumer ≠ none → m.ring.items = []
  nodup : m.producers.Nodup
  consumer : ∀ t, m.consumer = some t → listens t
  producers : ∀ t ∈ m.producers, listens t

theorem tidy_unattended (consumer : m.consumer = none) (producers : m.producers = []) :
    m.Tidy listens where
  empty waits := absurd consumer waits
  nodup := by
    rw [producers]
    exact List.nodup_nil
  consumer t waits := by
    rw [consumer] at waits
    cases waits
  producers t waits := by
    rw [producers] at waits
    cases waits

namespace Tidy

theorem mono (h : m.Tidy listens) (more : ∀ t, listens t → listens' t) : m.Tidy listens' where
  empty := h.empty
  nodup := h.nodup
  consumer t waits := more t (h.consumer t waits)
  producers t waits := more t (h.producers t waits)

/-- Nobody begins to wait, and there is a new message for nobody who waits for one. -/
theorem less (h : m.Tidy listens)
    (consumer : m'.consumer = none ∨ m'.consumer = m.consumer ∧ m'.ring = m.ring)
    (line : m'.producers.Sublist m.producers) : m'.Tidy listens where
  empty waits := by
    obtain none | ⟨same, ring⟩ := consumer
    · exact absurd none waits
    · rw [ring]
      exact h.empty (same ▸ waits)
  nodup := line.nodup h.nodup
  consumer t waits := by
    obtain none | ⟨same, -⟩ := consumer
    · rw [none] at waits
      cases waits
    · exact h.consumer t (same ▸ waits)
  producers t waits := h.producers t (line.subset waits)

theorem give (h : m.Tidy listens) (give : m.give? a = some (woken, m')) : m'.Tidy listens := by
  obtain ⟨-, consumer, producers⟩ := give?_listeners give
  refine h.less (Or.inl consumer) ?_
  rw [producers]

theorem take (h : m.Tidy listens) (take : m.take? = some (a, woken, m')) : m'.Tidy listens := by
  have consumer : m.consumer = none := by
    by_contra waits
    rw [take?_eq_none_iff.2 (h.empty waits)] at take
    cases take
  obtain ⟨-, same, -⟩ := take?_listeners take
  exact h.less (Or.inl (same.trans consumer)) (take?_line take)

theorem removeConsumer (h : m.Tidy listens) (t : TaskId) : (m.removeConsumer t).Tidy listens := by
  unfold Mailbox.removeConsumer
  split
  · exact h.less (Or.inl rfl) (List.Sublist.refl _)
  · exact h

theorem removeProducer (h : m.Tidy listens) (t : TaskId) : (m.removeProducer t).Tidy listens :=
  h.less (Or.inr ⟨rfl, rfl⟩) List.filter_sublist

/-- A task that finds no message becomes the consumer. -/
theorem await (h : m.Tidy listens) (none : m.take? = none) (mine : listens t) :
    (m.await t).Tidy listens where
  empty _ := (take?_eq_none_iff (m := m)).1 none
  nodup := h.nodup
  consumer u waits := by
    cases waits
    exact mine
  producers := h.producers

/-- A task that finds no space joins the producers. -/
theorem enqueue (h : m.Tidy listens) (mine : listens t) : (m.enqueue t).Tidy listens := by
  unfold Mailbox.enqueue
  split
  · exact h
  · rename_i absent
    refine ⟨h.empty, ?_, h.consumer, fun u waits => ?_⟩
    · exact h.nodup.append (List.nodup_singleton t) (List.disjoint_singleton.2 absent)
    · rcases List.mem_append.1 waits with waits | waits
      · exact h.producers u waits
      · rw [List.mem_singleton.1 waits]
        exact mine

/-- A task that ceases to wait need not know of it any more. -/
theorem removeListener (h : m.Tidy listens) (t : TaskId) :
    (m.removeListener t).Tidy fun u => listens u ∧ u ≠ t where
  empty waits := by
    obtain ⟨u, there⟩ := Option.ne_none_iff_exists'.1 waits
    rw [ring_removeListener]
    exact h.empty (by rw [(consumer_removeListener.1 there).1]; exact nofun)
  nodup := by
    rw [producers_removeListener]
    exact h.nodup.filter _
  consumer u waits := by
    obtain ⟨waits, ne⟩ := consumer_removeListener.1 waits
    exact ⟨h.consumer u waits, ne⟩
  producers u waits := by
    rw [producers_removeListener, List.mem_filter, decide_eq_true_iff] at waits
    exact ⟨h.producers u waits.1, waits.2⟩

end Tidy

end Mailbox

/-! ## All mailboxes -/

namespace Commons

variable {c c' : Commons} {t u : TaskId} {id b : MailboxId} {m m' : Mailbox Value} {v : Value}
  {f f' : Fiber} {listens listens' : TaskId → MailboxId → Prop} {woken : Option TaskId}

/-- Every mailbox is tidy; `listens` says which mailboxes a task knows of. -/
def Tidy (c : Commons) (listens : TaskId → MailboxId → Prop) : Prop :=
  ∀ id m, c.box? id = some m → m.Tidy fun t => listens t id

namespace Tidy

theorem congr (h : c.Tidy listens) (same : c'.boxes = c.boxes) : c'.Tidy listens := by
  intro id m here
  rw [box?_congr same] at here
  exact h id m here

theorem mono (h : c.Tidy listens) (more : ∀ t id, listens t id → listens' t id) :
    c.Tidy listens' := fun id m here => (h id m here).mono fun t => more t id

/-- One mailbox changes, and perhaps a task is woken. -/
theorem setBox_wake (h : c.Tidy listens) (here : c.box? id = some m)
    (tidy : m'.Tidy fun t => listens t id) (woken : Option TaskId) :
    ((c.setBox id m').wake woken).Tidy listens := by
  intro b m₀ there
  rw [box?_congr boxes_wake, box?_setBox here] at there
  split at there
  · rename_i same
    cases there
    rw [same]
    exact tidy
  · exact h b m₀ there

theorem setBox (h : c.Tidy listens) (here : c.box? id = some m)
    (tidy : m'.Tidy fun t => listens t id) : (c.setBox id m').Tidy listens :=
  h.setBox_wake here tidy none

theorem addBox (h : c.Tidy listens) (tidy : ∀ listens, m.Tidy listens) :
    (c.addBox m).2.Tidy listens := by
  intro b m₀ there
  unfold Commons.addBox box? at there
  rw [List.getElem?_append] at there
  split at there
  · exact h b m₀ there
  · rw [List.mem_singleton.1 (List.mem_of_getElem? there)]
    exact tidy _

theorem tryPut (h : c.Tidy listens) (id : MailboxId) (v : Value) :
    (c.tryPut id v).2.Tidy listens := by
  unfold Commons.tryPut
  split
  · rename_i woken m' given
    obtain ⟨m, here, give⟩ := Option.bind_eq_some_iff.1 given
    exact h.setBox_wake here ((h id m here).give give) woken
  · exact h

theorem putNb (h : c.Tidy listens) (id : MailboxId) (v : Value) :
    (c.putNb id v).2.Tidy listens := by
  rw [putNb_eq]
  exact h.tryPut id v

theorem getNb (h : c.Tidy listens) (id : MailboxId) : (c.getNb id).2.Tidy listens := by
  unfold Commons.getNb
  split
  · rename_i v woken m' taken
    obtain ⟨m, here, take⟩ := Option.bind_eq_some_iff.1 taken
    exact h.setBox_wake here ((h id m here).take take) woken
  · exact h

theorem advance (h : c.Tidy listens) (time : Nat) : (c.advance time).Tidy listens := by
  rw [advance_eq]
  exact List.foldlRecOn (motive := fun c : Commons => c.Tidy listens) _ _ (h.congr rfl)
    fun c' before e _ => before.putNb e.payload.1 e.payload.2

theorem mem_listen (f : Fiber) (id : MailboxId) : id ∈ (f.listen id).listening := by
  unfold Fiber.listen
  split
  · assumption
  · exact List.mem_append_right _ (List.mem_singleton_self id)

/-- A task that begins to wait for a message notes it. -/
theorem get (h : c.Tidy listens) (f : Fiber) (id : MailboxId)
    (mine : ∀ t, f.task = some t → ∀ b ∈ (c.get f id).2.2.listening, listens t b) :
    (c.get f id).2.1.Tidy listens := by
  unfold Commons.get at mine ⊢
  cases here : c.box? id with
  | none => exact h
  | some m =>
    simp only [here] at mine ⊢
    cases take : m.take? with
    | some taken =>
      obtain ⟨v, woken, m'⟩ := taken
      have tidy := (h id m here).take take
      refine h.setBox_wake here ?_ woken
      split
      · exact tidy.removeConsumer _
      · exact tidy
    | none =>
      simp only [take] at mine ⊢
      split
      · exact h
      · rename_i t task
        simp only [task] at mine
        cases consumer : m.consumer with
        | none =>
          simp only [consumer] at mine ⊢
          exact h.setBox here ((h id m here).await take (mine t rfl id (mem_listen f id)))
        | some other =>
          simp only [consumer] at mine ⊢
          split
          · rename_i same
            rw [if_pos same] at mine
            exact h.setBox here ((h id m here).await take (mine t rfl id (mem_listen f id)))
          · exact h

/-- A task that begins to wait for space notes it. -/
theorem put (h : c.Tidy listens) (f : Fiber) (id : MailboxId) (v : Value)
    (mine : ∀ t, f.task = some t → ∀ b ∈ (c.put f id v).2.2.listening, listens t b) :
    (c.put f id v).2.1.Tidy listens := by
  unfold Commons.put at mine ⊢
  cases here : c.box? id with
  | none => exact h
  | some m =>
    simp only [here] at mine ⊢
    cases give : m.give? v with
    | some given =>
      obtain ⟨woken, m'⟩ := given
      have tidy := (h id m here).give give
      refine h.setBox_wake here ?_ woken
      split
      · exact tidy.removeProducer _
      · exact tidy
    | none =>
      simp only [give] at mine ⊢
      split
      · exact h
      · rename_i t task
        simp only [task] at mine
        exact h.setBox here ((h id m here).enqueue (mine t rfl id (mem_listen f id)))

/-- Whatever is asked for keeps mailboxes tidy. -/
theorem perform (h : c.Tidy listens) (op : Op) (f : Fiber)
    (mine : ∀ t, f.task = some t → ∀ b ∈ (op.perform c f).2.2.listening, listens t b) :
    (op.perform c f).2.1.Tidy listens := by
  cases op with
  | getNb box => exact h.getNb box
  | putNb box v => exact h.putNb box v
  | get box => exact h.get f box mine
  | put box v => exact h.put f box v mine
  | makeBox max => exact h.addBox fun _ => Mailbox.tidy_unattended rfl rfl
  | start t => exact h.congr boxes_startFrom
  | resume t => exact h.congr boxes_resume
  | setFlag flag raised =>
    refine h.congr ?_
    change (c.setFlag flag raised).boxes = c.boxes
    unfold setFlag
    repeat' split
    all_goals rfl
  | _ => exact h.congr rfl

theorem forget (h : c.Tidy listens) (t : TaskId) (id : MailboxId) :
    (c.forget t id).Tidy fun u b => listens u b ∧ ¬ (u = t ∧ b = id) := by
  intro b m' there
  unfold Commons.forget at there
  cases here : c.box? id with
  | none =>
    rw [here] at there
    refine (h b m' there).mono fun u knows => ⟨knows, ?_⟩
    rintro ⟨-, rfl⟩
    rw [here] at there
    cases there
  | some m =>
    simp only [here] at there
    rw [box?_setBox here] at there
    split at there
    · rename_i same
      cases there
      rw [same]
      refine ((h id m here).removeListener t).mono fun u ⟨knows, ne⟩ => ⟨knows, ?_⟩
      exact fun both => ne both.1
    · rename_i ne
      exact (h b m' there).mono fun u knows => ⟨knows, fun both => ne both.2⟩

/-- A task leaves the mailboxes that its fiber listens to. -/
theorem stopListening (h : c.Tidy listens) (task : f.task = some t) :
    (c.stopListening f).1.Tidy fun u b => listens u b ∧ ¬ (u = t ∧ b ∈ f.listening) := by
  unfold Commons.stopListening
  rw [task]
  show (f.listening.foldl (fun c id => c.forget t id) c).Tidy _
  generalize f.listening = ids
  induction ids generalizing c listens with
  | nil => exact h.mono fun u b knows => ⟨knows, fun both => List.not_mem_nil both.2⟩
  | cons id ids ih =>
    refine (ih (h.forget t id)).mono fun u b ⟨⟨knows, other⟩, others⟩ => ⟨knows, ?_⟩
    rintro ⟨rfl, member⟩
    rcases List.mem_cons.1 member with rfl | member
    · exact other ⟨rfl, rfl⟩
    · exact others ⟨rfl, member⟩

end Tidy

/-! ## Tasks that may not wait -/

theorem box?_forget_ne (ne : b ≠ id) : (c.forget t id).box? b = c.box? b := by
  unfold forget
  split
  · exact box?_setBox_ne ne
  · rfl

/-- A task that leaves some mailboxes changes nothing for the others that wait. -/
theorem box?_forgets (t : TaskId) (ids : List MailboxId) (here : c.box? b = some m) :
    ∃ m', (ids.foldl (fun c id => c.forget t id) c).box? b = some m' ∧ m'.ring = m.ring ∧
      (∀ u, u ≠ t → (m'.consumer = some u ↔ m.consumer = some u)) ∧
      m'.producers.filter (· ≠ t) = m.producers.filter (· ≠ t) := by
  induction ids generalizing c m with
  | nil => exact ⟨m, here, rfl, fun _ _ => Iff.rfl, rfl⟩
  | cons id ids ih =>
    by_cases same : b = id
    · subst same
      have left : (c.forget t b).box? b = some (m.removeListener t) := by
        unfold forget
        rw [here]
        exact (box?_setBox here).trans (if_pos rfl)
      obtain ⟨m', there, ring, consumer, producers⟩ := ih left
      refine ⟨m', there, ring.trans Mailbox.ring_removeListener, fun u ne => ?_, ?_⟩
      · rw [consumer u ne, Mailbox.consumer_removeListener]
        exact and_iff_left ne
      · rw [producers, Mailbox.producers_removeListener, List.filter_filter]
        simp only [Bool.and_self]
    · exact ih ((box?_forget_ne same).trans here)

/-- A second consumer is refused, and nothing changes. -/
theorem get_secondConsumer {other : TaskId}
    (refused : (c.get f id).1 = .error (.secondConsumer t other)) :
    (c.get f id).2 = (c, f) ∧ f.task = some t ∧ other ≠ t ∧
      ∃ m, c.box? id = some m ∧ m.consumer = some other := by
  have unchanged : (c.get f id).2 = (c, f) := by
    have answer : (Op.get id).perform c f =
        (.error (.secondConsumer t other), (c.get f id).2.1, (c.get f id).2.2) :=
      Prod.ext refused rfl
    obtain ⟨same, same'⟩ := perform_error answer
    exact Prod.ext same same'
  refine ⟨unchanged, ?_⟩
  unfold Commons.get at refused
  cases here : c.box? id with
  | none =>
    simp only [here] at refused
    cases refused
  | some m =>
    simp only [here] at refused
    cases take : m.take? with
    | some taken =>
      simp only [take] at refused
      cases refused
    | none =>
      simp only [take] at refused
      cases task : f.task with
      | none =>
        simp only [task] at refused
        cases refused
      | some u =>
        simp only [task] at refused
        split at refused
        · rename_i consumer
          split at refused
          · cases refused
          · rename_i ne
            cases refused
            exact ⟨rfl, ne, m, rfl, consumer⟩
        · cases refused

end Commons

/-! ## Shifts -/

namespace Shift

variable {k k' : Shift} {t : TaskId}

/-- A task knows that it waits on a mailbox. -/
def Listens (k : Shift) (t : TaskId) (id : MailboxId) : Prop := id ∈ (k.fibers t).listening

/-- Mailboxes are tidy, and only tasks that go on wait. -/
structure Tidy (k : Shift) : Prop where
  sound : k.Sound
  boxes : k.commons.Tidy k.Listens
  alive : ∀ t id, k.Listens t id → ∃ r, k.commons.task? t = some r ∧ r.result = none

theorem tidy_initial : initial.Tidy where
  sound := sound_initial
  boxes id m here := by cases here
  alive t id knows := by cases knows

/-- What others do. -/
theorem tidy_foreign {c c' : Commons} {listens : TaskId → MailboxId → Prop}
    (change : c.Foreign c') (h : c.Tidy listens) : c'.Tidy listens := by
  cases change with
  | spawn => exact h.congr rfl
  | start t => exact h.congr Commons.boxes_start
  | ask op detached =>
    refine h.perform op _ fun t task => ?_
    rw [detached] at task
    cases task
  | tryPut box v => exact h.tryPut box v
  | advance time => exact h.advance time
  | refuse refusing => exact h.congr rfl
  | makeBox made =>
    obtain ⟨-, -, consumer, producers⟩ := made.empty
    exact h.addBox fun _ => Mailbox.tidy_unattended consumer producers
  | makeExitBox made => exact h.congr rfl
  | attend here consumer producers => exact h.congr rfl

/-- What a task knows of its mailboxes grows while it is driven. -/
theorem listening_perform (op : Op) (c : Commons) (f : Fiber) {id : MailboxId}
    (knows : id ∈ f.listening) : id ∈ (op.perform c f).2.2.listening := by
  have listen : ∀ box, id ∈ (f.listen box).listening := fun box => by
    unfold Fiber.listen
    split
    · exact knows
    · exact List.mem_append_left _ knows
  cases op with
  | get box =>
    change id ∈ (c.get f box).2.2.listening
    unfold Commons.get
    repeat' split
    all_goals first
      | exact knows
      | exact listen box
  | put box v =>
    change id ∈ (c.put f box v).2.2.listening
    unfold Commons.put
    repeat' split
    all_goals first
      | exact knows
      | exact listen box
  | _ => exact knows

/-- A step keeps mailboxes tidy if those who wait after it waited before it, or are driven. -/
theorem Tidy.of_next (h : k.Tidy) (step : Next k k') (boxes : k'.commons.Tidy k'.Listens)
    (alive : ∀ u id, k'.Listens u id → k'.post u = .driven ∨
      k.Listens u id ∧ k'.commons.result? u = k.commons.result? u) : k'.Tidy := by
  obtain ⟨sound, later⟩ := h.sound.next step
  refine ⟨sound, boxes, fun u id knows => ?_⟩
  rcases alive u id knows with driven | ⟨known, same⟩
  · obtain ⟨r, here, done, started, flags⟩ := sound.orderly.running (away_of_driven driven)
    exact ⟨r, here, (flags.live started done).2⟩
  · obtain ⟨r, here, none⟩ := h.alive u id known
    obtain ⟨r', there, -⟩ := later u r here
    unfold Commons.result? at same
    rw [here, there, Option.bind_some, Option.bind_some, none] at same
    exact ⟨r', there, same⟩

/-- Nobody comes or goes. -/
theorem Tidy.of_boxes (h : k.Tidy) (step : Next k k') (boxes : k'.commons.boxes = k.commons.boxes)
    (listens : ∀ u, (k'.fibers u).listening = (k.fibers u).listening)
    (ends : k.commons.SameEnds k'.commons) : k'.Tidy := by
  have same : ∀ u id, k'.Listens u id ↔ k.Listens u id := fun u id => by
    unfold Listens
    rw [listens]
  refine h.of_next step ((h.boxes.congr boxes).mono fun u id => (same u id).2) ?_
  exact fun u id knows => Or.inr ⟨(same u id).1 knows, ends.result u⟩

/-- A task leaves all mailboxes. -/
theorem Tidy.of_leave (h : k.Tidy) (step : Next k k') {c : Commons}
    (same : c.boxes = k.commons.boxes)
    (boxes : k'.commons.boxes = (c.stopListening (k.fibers t)).1.boxes) {fiber : Fiber}
    (fibers : k'.fibers = Function.update k.fibers t fiber) (none : fiber.listening = [])
    (result : ∀ u, u ≠ t → k'.commons.result? u = k.commons.result? u) : k'.Tidy := by
  have other : ∀ u id, k'.Listens u id ↔ u ≠ t ∧ k.Listens u id := by
    intro u id
    unfold Listens
    rw [fibers, Function.update_apply]
    split
    · rename_i mine
      rw [none]
      exact iff_of_false List.not_mem_nil fun both => both.1 mine
    · rename_i ne
      exact (and_iff_right ne).symm
  refine h.of_next step ?_ fun u id knows => ?_
  · have left := (h.boxes.congr same).stopListening (h.sound.own t)
    refine (left.congr boxes).mono fun u id ⟨known, gone⟩ => (other u id).2 ⟨?_, known⟩
    rintro rfl
    exact gone ⟨rfl, known⟩
  · obtain ⟨ne, known⟩ := (other u id).1 knows
    exact Or.inr ⟨known, result u ne⟩

/-- Every step keeps mailboxes tidy. -/
theorem Tidy.next (h : k.Tidy) (step : Next k k') : k'.Tidy := by
  cases step with
  | outside change =>
    refine h.of_next (.outside change) (tidy_foreign change h.boxes) fun u id knows => ?_
    exact Or.inr ⟨knows, change.sameEnds.result u⟩
  | @begin t queue next =>
    have spared := Commons.spares_stopListening { k.commons with queue } (k.fibers t)
    exact h.of_leave (c := { k.commons with queue }) (.begin next) rfl rfl rfl rfl fun u _ =>
      spared.result u
  | @request t driven op =>
    have more : ∀ u id, k.Listens u id → (k.set t (op.perform k.commons (k.fibers t)).2.1
        (op.perform k.commons (k.fibers t)).2.2 .driven).Listens u id := by
      intro u id knows
      change id ∈ (Function.update k.fibers t _ u).listening
      rw [Function.update_apply]
      split
      · rename_i same
        rw [← same]
        exact listening_perform op _ _ knows
      · exact knows
    refine h.of_next (.request driven op) ((h.boxes.mono more).perform op (k.fibers t) ?_) ?_
    · intro u task id knows
      obtain rfl : t = u := Option.some.inj ((h.sound.own t).symm.trans task)
      change id ∈ (Function.update k.fibers t _ t).listening
      rw [Function.update_self]
      exact knows
    · intro u id knows
      change id ∈ (Function.update k.fibers t _ u).listening at knows
      by_cases same : u = t
      · rw [same]
        exact Or.inl (Function.update_self ..)
      · rw [Function.update_of_ne same] at knows
        exact Or.inr ⟨knows, (Commons.spares_perform op k.commons (k.fibers t)).result u⟩
  | @pause t r driven here why reason =>
    refine h.of_boxes (.pause driven here why reason) rfl (fun u => ?_)
      (Commons.spares_paused here why).toSameEnds
    change (Function.update k.fibers t _ u).listening = _
    rw [Function.update_apply]
    split
    · rename_i same
      rw [same]
    · rfl
  | @finish t r driven here result reason =>
    have spared := Commons.spares_stopListening k.commons (k.fibers t)
    refine h.of_leave (.finish driven here result reason) rfl rfl rfl rfl fun u ne => ?_
    refine Eq.trans ?_ (spared.result u)
    exact (Commons.result?_setTask here).trans (if_neg ne)
  | @fall t driven =>
    have spared := Commons.spares_stopListening k.commons (k.fibers t)
    exact h.of_leave (.fall driven) rfl rfl rfl rfl fun u _ => spared.result u
  | @register t r e here unended box =>
    refine h.of_next (.register here unended box) (h.boxes.congr rfl) fun u id knows =>
      Or.inr ⟨knows, ?_⟩
    change (k.commons.setTask t _).result? u = _
    rw [Commons.result?_setTask here]
    split
    · rename_i same
      rw [same, Commons.result?, here]
      rfl
    · rfl
  | late here given box => exact h.of_boxes (.late here given box) rfl (fun _ => rfl) (.refl _)
  | @deliver n before after parts =>
    exact h.of_boxes (.deliver parts) Commons.boxes_notifyExit (fun _ => rfl)
      (Commons.sameEnds_notifyExit _ _ _)
  | stray n =>
    exact h.of_boxes (.stray n) Commons.boxes_notifyExit (fun _ => rfl)
      (Commons.sameEnds_notifyExit _ _ _)
  | takeExit take =>
    exact h.of_boxes (.takeExit take) (Commons.boxes_takeExit? take) (fun _ => rfl)
      (Commons.sameEnds_takeExit? take)

theorem tidy (run : Reaches initial k) : k.Tidy := by
  induction run with
  | refl => exact tidy_initial
  | tail _ step ih => exact ih.next step

/-- Who waits on mailboxes, at any time. -/
structure Attentive (k : Shift) : Prop where
  /-- Nobody waits for a message that is there. -/
  empty : ∀ id m, k.commons.box? id = some m → m.consumer ≠ none → m.ring.items = []
  /-- No task waits for space twice. -/
  nodup : ∀ id m, k.commons.box? id = some m → m.producers.Nodup
  /-- A task that waits knows it, and is not done. -/
  listens : ∀ id m t, k.commons.box? id = some m → m.consumer = some t ∨ t ∈ m.producers →
    id ∈ (k.fibers t).listening ∧ ∃ r, k.commons.task? t = some r ∧ r.status ≠ .done
  /-- A task that may not wait because another one does changes nothing.  When its drive ends
  for that, nobody else notices. -/
  refused : ∀ t id other,
    (k.commons.get (k.fibers t) id).1 = .error (.secondConsumer t other) →
      (k.commons.get (k.fibers t) id).2 = (k.commons, k.fibers t) ∧
      ∃ m m', k.commons.box? id = some m ∧ (k.quiet t).box? id = some m' ∧
        m'.ring = m.ring ∧ m.consumer = some other ∧ m'.consumer = some other ∧
        m'.producers = m.producers.filter (· ≠ t)

theorem Tidy.isAttentive (h : k.Tidy) : k.Attentive where
  empty id m here := (h.boxes id m here).empty
  nodup id m here := (h.boxes id m here).nodup
  listens id m t here waits := by
    have knows : k.Listens t id := by
      rcases waits with waits | waits
      · exact (h.boxes id m here).consumer t waits
      · exact (h.boxes id m here).producers t waits
    obtain ⟨r, there, none⟩ := h.alive t id knows
    refine ⟨knows, r, there, fun done => ?_⟩
    have flags := h.sound.orderly.sound t r there
    obtain ⟨-, given⟩ := flags.done (TaskRecord.status_eq_done_iff.1 done)
    rw [none] at given
    cases given
  refused t id other refused := by
    obtain ⟨unchanged, task, ne, m, here, consumer⟩ := Commons.get_secondConsumer refused
    refine ⟨unchanged, m, ?_⟩
    have left := h.boxes.stopListening task
    unfold quiet
    unfold Commons.stopListening at left ⊢
    rw [task] at left ⊢
    obtain ⟨m', there, ring, others, line⟩ :=
      Commons.box?_forgets t (k.fibers t).listening here
    refine ⟨m', here, there, ring, consumer, (others other ne).2 consumer, ?_⟩
    rw [← line, List.filter_eq_self.2]
    intro u waits
    obtain ⟨knows, gone⟩ := (left id m' there).producers u waits
    refine decide_eq_true fun same => gone ⟨same, ?_⟩
    rw [same] at knows
    exact knows

/-- Whatever happens, and whatever the bodies of the tasks do, those who wait know it. -/
theorem attentive (run : Reaches initial k) : k.Attentive := (tidy run).isAttentive

/-- A task waits for a message, and another one that is driven may not. -/
theorem attentive_pair : ∃ k, Reaches initial k ∧ k.Attentive ∧
    (k.commons.box? ⟨0⟩).map (·.consumer) = some (some ⟨1⟩) ∧
    (k.fibers ⟨1⟩).listening = [⟨0⟩] ∧ k.commons.status? ⟨1⟩ = some .paused ∧
    (k.commons.get (k.fibers ⟨2⟩) ⟨0⟩).1 = .error (.secondConsumer ⟨2⟩ ⟨1⟩) := by
  have made : Reaches initial _ := .single (.outside (.makeBox .unbounded))
  have one := made.tail (.outside .spawn)
  have two := one.tail (.outside .spawn)
  have first := (two.tail (.outside (.start ⟨1⟩))).tail (.begin rfl)
  have waits := first.tail (.request (t := ⟨1⟩) rfl (.get ⟨0⟩))
  have paused := waits.tail (.pause (t := ⟨1⟩) rfl rfl (.waitingForMessage ⟨0⟩) none)
  have second := (paused.tail (.outside (.start ⟨2⟩))).tail (.begin rfl)
  exact ⟨_, second, attentive second, rfl, rfl, rfl, rfl⟩

end Shift

end Resumable
