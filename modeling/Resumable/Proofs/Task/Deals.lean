import Mathlib.Logic.Relation
import Resumable.Proofs.Task.Commons

/-!
# What operations are made of

Most operations on what tasks share do a few things one after the other: they start tasks,
resume tasks, and change something that has nothing to do with tasks and the executor
(`Commons.Deals`).  Exceptions are a new task, the end of a drive and the request for an exit
message.  So what these three keep is kept by every request of a body, by timers and by exit
messages.
-/

namespace Resumable

namespace Commons

variable {c c' c'' : Commons}

/-- Tasks and their queue stay as they are.  The executor may be shut down, but it is never
opened again. -/
structure Elsewhere (c c' : Commons) : Prop where
  tasks : c'.tasks = c.tasks
  queue : c'.queue = c.queue
  closed : c.closed = true → c'.closed = true

theorem Elsewhere.refl (c : Commons) : c.Elsewhere c := ⟨rfl, rfl, id⟩

theorem Elsewhere.trans (h : c.Elsewhere c') (h' : c'.Elsewhere c'') : c.Elsewhere c'' :=
  ⟨h'.tasks.trans h.tasks, h'.queue.trans h.queue, h'.closed ∘ h.closed⟩

theorem elsewhere_setBox (c : Commons) (id : MailboxId) (m : Mailbox Value) :
    c.Elsewhere (c.setBox id m) :=
  ⟨rfl, rfl, fun shut => shut⟩

theorem elsewhere_stopListening (c : Commons) (f : Fiber) :
    c.Elsewhere (c.stopListening f).1 := by
  unfold stopListening
  split
  · exact .refl c
  · refine List.foldlRecOn _ _ (Elsewhere.refl _) fun c' before box _ => before.trans ?_
    unfold forget
    split
    · exact elsewhere_setBox c' box _
    · exact .refl c'

/-- One of the things that operations are made of. -/
inductive Deal (c : Commons) : Commons → Prop
  | elsewhere {c' : Commons} (apart : c.Elsewhere c') : Deal c c'
  | start (t : TaskId) : Deal c (c.start t).2
  | resume (t : TaskId) : Deal c (c.resume t)

/-- Any number of such things, one after the other. -/
def Deals : Commons → Commons → Prop := Relation.ReflTransGen Deal

namespace Deals

theorem refl (c : Commons) : c.Deals c := Relation.ReflTransGen.refl

theorem trans (h : c.Deals c') (h' : c'.Deals c'') : c.Deals c'' :=
  Relation.ReflTransGen.trans h h'

theorem single (deal : c.Deal c') : c.Deals c' := Relation.ReflTransGen.single deal

theorem elsewhere (apart : c.Elsewhere c') : c.Deals c' := single (.elsewhere apart)

theorem wake (h : c.Deals c') (woken : Option TaskId) : c.Deals (c'.wake woken) := by
  cases woken with
  | none => exact h
  | some t => exact h.trans (single (.resume t))

end Deals

/-- Once the executor is shut down, nothing is put in the queue any more. -/
theorem Deals.shut (h : c.Deals c') (shut : c.closed = true) :
    c'.closed = true ∧ c'.queue = c.queue := by
  induction h with
  | refl => exact ⟨shut, rfl⟩
  | @tail c' c'' _ deal ih =>
    obtain ⟨closed, same⟩ := ih
    have refuses : c'.accepts = false := by
      unfold accepts
      rw [closed]
      rfl
    rw [← same]
    cases deal with
    | elsewhere apart => exact ⟨apart.closed closed, apart.queue⟩
    | start t =>
      unfold start
      rw [if_pos closed]
      exact ⟨closed, rfl⟩
    | resume t =>
      obtain ⟨r, -, -, -, accepts, -⟩ | same | ⟨r, -, -, -, same⟩ := resume_cases c' t
      · cases refuses.symm.trans accepts
      · rw [same]
        exact ⟨closed, rfl⟩
      · rw [same]
        exact ⟨closed, rfl⟩

theorem deals_startFrom (c : Commons) (current : Option TaskId) (t : TaskId) :
    c.Deals (c.startFrom current t).2 := by
  unfold startFrom
  split
  · split
    · exact .single (.start t)
    · exact .refl c
  · exact .refl c

theorem deals_setBox (c : Commons) (id : MailboxId) (m : Mailbox Value) :
    c.Deals (c.setBox id m) :=
  .elsewhere (elsewhere_setBox c id m)

theorem deals_tryPut (c : Commons) (id : MailboxId) (v : Value) : c.Deals (c.tryPut id v).2 := by
  unfold tryPut
  split
  · exact (deals_setBox c id _).wake _
  · exact .refl c

theorem deals_putNb (c : Commons) (id : MailboxId) (v : Value) : c.Deals (c.putNb id v).2 := by
  rw [putNb_eq]
  exact deals_tryPut c id v

theorem deals_getNb (c : Commons) (id : MailboxId) : c.Deals (c.getNb id).2 := by
  unfold getNb
  split
  · exact (deals_setBox c id _).wake _
  · exact .refl c

theorem deals_get (c : Commons) (f : Fiber) (id : MailboxId) : c.Deals (c.get f id).2.1 := by
  unfold get
  repeat' split
  all_goals first
    | exact .refl c
    | exact deals_setBox c id _
    | exact (deals_setBox c id _).wake _

theorem deals_put (c : Commons) (f : Fiber) (id : MailboxId) (v : Value) :
    c.Deals (c.put f id v).2.1 := by
  unfold put
  repeat' split
  all_goals first
    | exact .refl c
    | exact deals_setBox c id _
    | exact (deals_setBox c id _).wake _

theorem deals_advance (c : Commons) (time : Nat) : c.Deals (c.advance time) := by
  rw [advance_eq]
  exact List.foldlRecOn _ _ (.elsewhere ⟨rfl, rfl, id⟩) fun c' before e _ =>
    before.trans (deals_putNb c' e.payload.1 e.payload.2)

/-- Every request of a body is made of such things. -/
theorem deals_perform (op : Op) (c : Commons) (f : Fiber) : c.Deals (op.perform c f).2.1 := by
  cases op with
  | getNb box => exact deals_getNb c box
  | putNb box v => exact deals_putNb c box v
  | get box => exact deals_get c f box
  | put box v => exact deals_put c f box v
  | start t => exact deals_startFrom c f.task t
  | resume t => exact .single (.resume t)
  | setFlag flag raised =>
    change c.Deals (c.setFlag flag raised)
    unfold setFlag
    repeat' split
    all_goals exact .elsewhere ⟨rfl, rfl, id⟩
  | shutdown => exact .elsewhere ⟨rfl, rfl, fun _ => rfl⟩
  | _ => exact .elsewhere ⟨rfl, rfl, id⟩

/-- A drive is made of them as well, however far it gets. -/
theorem deals_runTimed {σ α : Type} (d : Drive σ α) (left : Nat) (s : Scene σ) :
    s.commons.Deals (d.runTimed left s).2.commons := by
  induction d generalizing left s with
  | done a => exact .refl _
  | violate message => exact .refl _
  | diverge => exact .refl _
  | commit body next ih => exact ih () left { s with body }
  | ask op next ih =>
    have ticked : s.commons.Deals (if left = 0 then s.commons.tick else s.commons) := by
      split
      · exact deals_advance _ _
      · exact .refl _
    have performed := deals_perform op (if left = 0 then s.commons.tick else s.commons) s.fiber
    rw [Drive.runTimed]
    rcases answer : op.perform (if left = 0 then s.commons.tick else s.commons) s.fiber with
      ⟨v | r, c', f'⟩
    · rw [answer] at performed
      exact ticked.trans performed
    · rw [answer] at performed
      exact (ticked.trans performed).trans (ih r _ { s with commons := c', fiber := f' })

theorem deals_notifyExit (c : Commons) (message : ExitMessage) (e : ExitBoxId) :
    c.Deals (c.notifyExit message e) := by
  unfold notifyExit
  split
  · refine Deals.wake ?_ _
    exact .elsewhere ⟨rfl, rfl, id⟩
  · exact .refl c

theorem deals_takeExit? {message : ExitMessage} {e : ExitBoxId}
    (take : c.takeExit? e = some (message, c')) : c.Deals c' := by
  unfold takeExit? at take
  split at take
  · cases take
    refine Deals.wake ?_ _
    exact .elsewhere ⟨rfl, rfl, id⟩
  · cases take

end Commons

end Resumable
