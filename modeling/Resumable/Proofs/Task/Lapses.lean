import Resumable.Proofs.Mailbox.Traffic
import Resumable.Proofs.Task.Listening

/-!
# Producers that give up

A message that is taken from a mailbox makes room for one more, and one producer alone leaves
the line and is woken for it.  The others go on to wait although there is space: the one that
was woken is expected to use it.  `Calls` keeps the account of a mailbox, who was woken for it
and has put no message since, and `Shift.Watched` are the runs with an account.

The account always covers the space that is free while tasks wait for some
(`Shift.Watched.relays`).  So a task waits in vain only after a producer gave up, which means
that it was woken and its drive ended without a message for the mailbox.  Nobody else is woken
then: at the end of the run of `TaskPool.swallows` a task waits for space on an empty mailbox, and
nothing is left to drive.
-/

namespace Resumable

/-! ## One mailbox -/

namespace Mailbox

variable {α : Type} {m m' m'' : Mailbox α} {a : α} {t : TaskId} {woken : Option TaskId}

/-- Messages may arrive, and nobody joins the line but of a full mailbox. -/
structure Grows (m m' : Mailbox α) : Prop where
  max : m'.ring.max = m.ring.max
  sized : m.ring.Sized → m'.ring.Sized
  items : m.ring.items.length ≤ m'.ring.items.length
  line : m'.hasSpace = true → m'.producers ⊆ m.producers

theorem hasSpace_iff : m.hasSpace = true ↔ m.ring.items.length < m.ring.max := Ring.hasSpace_iff

theorem Grows.refl (m : Mailbox α) : m.Grows m where
  max := rfl
  sized := id
  items := Nat.le_refl _
  line _ := List.Subset.refl _

theorem Grows.trans (h : m.Grows m') (h' : m'.Grows m'') : m.Grows m'' where
  max := h'.max.trans h.max
  sized := h'.sized ∘ h.sized
  items := Nat.le_trans h.items h'.items
  line space := by
    refine List.Subset.trans (h'.line space) (h.line ?_)
    rw [hasSpace_iff] at space ⊢
    rw [h'.max] at space
    exact Nat.lt_of_le_of_lt h'.items space

/-- The messages stay, and nobody joins the line. -/
theorem grows_ring (ring : m'.ring = m.ring) (line : m'.producers ⊆ m.producers) : m.Grows m' where
  max := by rw [ring]
  sized := by
    rw [ring]
    exact id
  items := Nat.le_of_eq (by rw [ring])
  line _ := line

theorem grows_give? (give : m.give? a = some (woken, m')) : m.Grows m' := by
  unfold give? at give
  split at give
  · cases give
  · rename_i ring push
    cases give
    have max : ring.max = m.ring.max := by
      unfold Ring.push? at push
      split_ifs at push
      · cases push
        rfl
      · cases push
        rfl
    refine ⟨max, fun sized => (sized.push? push).1, ?_, fun _ => List.Subset.refl _⟩
    rw [Ring.items_of_push? push, List.length_append]
    exact Nat.le_add_right _ _

/-- A mailbox that accepts nothing has no space. -/
theorem hasSpace_eq_false (none : m.give? a = none) : m.hasSpace = false := by
  unfold give? at none
  split at none
  · rename_i push
    unfold Ring.push? at push
    split_ifs at push with taken full
    refine Bool.eq_false_iff.2 fun space => ?_
    rw [hasSpace_iff, taken, full] at space
    exact Nat.lt_irrefl _ space
  · cases none

theorem ring_enqueue : (m.enqueue t).ring = m.ring := by
  unfold Mailbox.enqueue
  split <;> rfl

theorem grows_enqueue (none : m.give? a = none) : m.Grows (m.enqueue t) where
  max := by rw [ring_enqueue]
  sized := by
    rw [ring_enqueue]
    exact id
  items := Nat.le_of_eq (by rw [ring_enqueue])
  line space := by
    unfold Mailbox.hasSpace at space
    rw [ring_enqueue] at space
    exact absurd space (Bool.eq_false_iff.1 (hasSpace_eq_false none))

theorem max_take? (take : m.take? = some (a, woken, m')) : m'.ring.max = m.ring.max := by
  unfold take? at take
  split at take
  · cases take
  · rename_i b ring pop
    have max : ring.max = m.ring.max := by
      unfold Ring.pop? at pop
      split at pop
      · cases pop
      · cases pop
        rfl
    split at take
    · cases take
      exact max
    · cases take
      exact max

/-- If there is space after a message was taken, the first producer is woken. -/
theorem take?_woken (take : m.take? = some (a, woken, m')) (space : m'.hasSpace = true) :
    woken = m.producers.head? := by
  unfold take? at take
  split at take
  · cases take
  · split at take
    · cases take
      rfl
    · rename_i full
      cases take
      exact absurd space full

end Mailbox

/-! ## Accounts -/

/-- The producers that were woken for a mailbox since it was full last. -/
structure Calls where
  /-- Those that left the line when a message was taken, and have put none since. -/
  owing : List TaskId
  /-- Those whose drives ended while they were owing. -/
  lapsed : List TaskId

namespace Calls

variable {a : Calls} {who : Option TaskId} {m m' m₁ : Mailbox Value} {v : Value}
  {woken : Option TaskId} {t : TaskId}

def clear : Calls := { owing := [], lapsed := [] }

/-- The account after a mailbox has changed, perhaps by a request of the task `who`.  Nobody
is expected at a full mailbox. -/
def after (a : Calls) (who : Option TaskId) (m m' : Mailbox Value) : Calls :=
  if m'.hasSpace then
    if m'.ring.length < m.ring.length then { a with owing := a.owing ++ m.producers.head?.toList }
    else if m.ring.length < m'.ring.length then
      match who with
      | some t => { a with owing := a.owing.erase t }
      | none => a
    else a
  else clear

/-- The account after some drives have ended. -/
def lapse (a : Calls) (ends : TaskId → Bool) : Calls :=
  { a with lapsed := a.lapsed ++ a.owing.filter ends }

/-- As long as tasks wait for space, the messages and the producers that owe one fill the
mailbox. -/
def Fills (a : Calls) (m : Mailbox Value) : Prop :=
  m.producers ≠ [] → m.ring.max ≤ m.ring.items.length + a.owing.length

theorem fills_full (sized : m.ring.Sized) (full : m.hasSpace = false) : a.Fills m := fun _ => by
  rw [Ring.full_of_hasSpace sized full]
  exact Nat.le_add_right _ _

/-- One message pays for one producer at most. -/
theorem length_owing_after (a : Calls) (who : Option TaskId)
    (more : m.ring.items.length ≤ m'.ring.items.length) (space : m'.hasSpace = true) :
    m.ring.items.length + a.owing.length ≤
      m'.ring.items.length + (a.after who m m').owing.length := by
  have more' : ¬ m'.ring.length < m.ring.length := Nat.not_lt.2 more
  unfold after
  rw [if_pos space, if_neg more']
  split
  · rename_i less
    cases who with
    | none => exact Nat.add_le_add_right more _
    | some t =>
      have less : m.ring.items.length < m'.ring.items.length := less
      have erased : a.owing.length - 1 ≤ (a.owing.erase t).length := List.le_length_erase
      simp only
      omega
  · exact Nat.add_le_add_right more _

/-- Only the first in line is added to those that owe a message. -/
theorem mem_owing_after (owes : t ∈ (a.after who m m').owing) :
    (a.after who m m').lapsed = a.lapsed ∧ (t ∈ a.owing ∨
      m'.hasSpace = true ∧ m'.ring.length < m.ring.length ∧ m.producers.head? = some t) := by
  unfold after at owes ⊢
  split_ifs at owes ⊢ with space less more
  · refine ⟨rfl, ?_⟩
    rcases List.mem_append.1 owes with owes | first
    · exact Or.inl owes
    · exact Or.inr ⟨space, less, Option.mem_toList.1 first⟩
  · cases who with
    | none => exact ⟨rfl, Or.inl owes⟩
    | some u => exact ⟨rfl, Or.inl (List.mem_of_mem_erase owes)⟩
  · exact ⟨rfl, Or.inl owes⟩
  · cases owes

theorem Fills.grow (h : a.Fills m) (sized : m.ring.Sized) (grows : m.Grows m') :
    (a.after who m m').Fills m' := by
  cases space : m'.hasSpace with
  | false => exact fills_full (grows.sized sized) space
  | true =>
    intro waiting
    have waited : m.producers ≠ [] := by
      intro line
      refine waiting (List.eq_nil_iff_forall_not_mem.2 fun t waits => ?_)
      have waits := grows.line space waits
      rw [line] at waits
      cases waits
    have filled := h waited
    have covered := length_owing_after a who grows.items space
    rw [grows.max]
    omega

/-- The producer that is woken takes the place of the message. -/
theorem Fills.take (h : a.Fills m) (sized : m.ring.Sized) (take : m.take? = some (v, woken, m₁))
    (ring : m'.ring = m₁.ring) (line : m'.producers = m₁.producers) :
    (a.after who m m').Fills m' := by
  obtain ⟨rest, items, -, rfl, sized'⟩ := Mailbox.take?_eq_some sized take
  have left : m'.ring.items = rest := by rw [ring]
  have less : m'.ring.length < m.ring.length := by
    unfold Ring.length
    rw [left, items]
    exact Nat.lt_succ_self _
  cases space : m'.hasSpace with
  | false => exact fills_full (ring ▸ sized') space
  | true =>
    intro waiting
    rw [line] at waiting
    unfold after
    rw [if_pos space, if_pos less]
    cases producers : m.producers with
    | nil =>
      rw [producers] at waiting
      exact absurd rfl waiting
    | cons first others =>
      have filled := h (by rw [producers]; exact List.cons_ne_nil _ _)
      rw [items, List.length_cons] at filled
      rw [left, ring]
      simp only [List.head?_cons, Option.toList_some, List.length_append, List.length_singleton]
      omega

end Calls

/-! ## All mailboxes -/

namespace Commons

variable {c c' c'' : Commons} {t u : TaskId} {id box : MailboxId} {m m₀ m' : Mailbox Value}
  {f : Fiber} {woken : Option TaskId}

/-- Nobody leaves the queue, and no message leaves a mailbox. -/
structure Adds (id : MailboxId) (c c' : Commons) : Prop where
  queue : c.queue ⊆ c'.queue
  box : ∀ m, c.box? id = some m → ∃ m', c'.box? id = some m' ∧ m.Grows m'
  none : c.box? id = none → c'.box? id = none

theorem Adds.trans (h : Adds id c c') (h' : Adds id c' c'') : Adds id c c'' where
  queue := List.Subset.trans h.queue h'.queue
  box m here := by
    obtain ⟨m', here', grows⟩ := h.box m here
    obtain ⟨m'', here'', grows'⟩ := h'.box m' here'
    exact ⟨m'', here'', grows.trans grows'⟩
  none absent := h'.none (h.none absent)

theorem adds_same (c : Commons) (queue : c.queue ⊆ c'.queue) (boxes : c'.boxes = c.boxes) :
    Adds id c c' where
  queue := queue
  box m here := ⟨m, (box?_congr boxes).trans here, .refl m⟩
  none absent := (box?_congr boxes).trans absent

theorem Adds.refl (c : Commons) : Adds id c c := adds_same c (List.Subset.refl _) rfl

theorem adds_start (c : Commons) (t : TaskId) : Adds id c (c.start t).2 := by
  refine adds_same c ?_ boxes_start
  obtain ⟨r, -, -, -, same⟩ | ⟨e, same⟩ | ⟨r, -, -, -, same⟩ := start_cases c t
  · rw [same]
    exact List.subset_append_left _ _
  · rw [same]
    exact List.Subset.refl _
  · rw [same]
    exact List.Subset.refl _

theorem adds_startFrom (c : Commons) (current : Option TaskId) (t : TaskId) :
    Adds id c (c.startFrom current t).2 := by
  unfold startFrom
  repeat' split
  all_goals first
    | exact adds_start c t
    | exact .refl c

theorem adds_resume (c : Commons) (t : TaskId) : Adds id c (c.resume t) := by
  refine adds_same c ?_ boxes_resume
  obtain ⟨r, -, -, -, -, same⟩ | same | ⟨r, -, -, -, same⟩ := resume_cases c t
  · rw [same]
    exact List.subset_append_left _ _
  · rw [same]
    exact List.Subset.refl _
  · rw [same]
    exact List.Subset.refl _

theorem adds_wake (c : Commons) (woken : Option TaskId) : Adds id c (c.wake woken) := by
  cases woken with
  | none => exact .refl c
  | some t => exact adds_resume c t

/-- One mailbox changes, and perhaps a task is woken. -/
theorem adds_setBox_wake (here : c.box? box = some m₀) (grows : id = box → m₀.Grows m')
    (woken : Option TaskId) : Adds id c ((c.setBox box m').wake woken) := by
  refine Adds.trans ?_ (adds_wake _ woken)
  refine ⟨List.Subset.refl _, fun m there => ?_, fun absent => ?_⟩
  · rw [box?_setBox here]
    split
    · rename_i same
      rw [same, here] at there
      cases there
      exact ⟨m', rfl, grows same⟩
    · exact ⟨m, there, .refl m⟩
  · rw [box?_setBox here, if_neg, absent]
    rintro rfl
    rw [here] at absent
    cases absent

theorem adds_setBox (here : c.box? box = some m₀) (grows : m₀.Grows m') :
    Adds id c (c.setBox box m') :=
  adds_setBox_wake here (fun _ => grows) none

theorem adds_tryPut (c : Commons) (box : MailboxId) (v : Value) :
    Adds id c (c.tryPut box v).2 := by
  unfold tryPut
  split
  · rename_i woken m' given
    obtain ⟨m, here, give⟩ := Option.bind_eq_some_iff.1 given
    exact adds_setBox_wake here (fun _ => Mailbox.grows_give? give) woken
  · exact .refl c

theorem adds_putNb (c : Commons) (box : MailboxId) (v : Value) :
    Adds id c (c.putNb box v).2 := by
  rw [putNb_eq]
  exact adds_tryPut c box v

theorem adds_put (c : Commons) (f : Fiber) (box : MailboxId) (v : Value) :
    Adds id c (c.put f box v).2.1 := by
  unfold put
  cases here : c.box? box with
  | none => exact .refl c
  | some m =>
    simp only
    cases give : m.give? v with
    | some given =>
      obtain ⟨woken, m'⟩ := given
      refine adds_setBox_wake here (fun _ => (Mailbox.grows_give? give).trans ?_) woken
      split
      · exact Mailbox.grows_ring rfl List.filter_sublist.subset
      · exact .refl m'
    | none =>
      simp only
      split
      · exact .refl c
      · exact adds_setBox here (Mailbox.grows_enqueue give)

theorem adds_advance (c : Commons) (time : Nat) : Adds id c (c.advance time) := by
  rw [advance_eq]
  exact List.foldlRecOn (motive := fun c' : Commons => Adds id c c') _ _
    (adds_same c (List.Subset.refl _) rfl)
    fun c' before e _ => before.trans (adds_putNb c' e.payload.1 e.payload.2)

theorem adds_stopListening (c : Commons) (f : Fiber) : Adds id c (c.stopListening f).1 := by
  unfold stopListening
  split
  · exact .refl c
  · refine List.foldlRecOn (motive := fun c' : Commons => Adds id c c') _ _ (.refl c) ?_
    intro c' before box _
    refine before.trans ?_
    unfold forget
    split
    · rename_i m here
      refine adds_setBox here (Mailbox.grows_ring Mailbox.ring_removeListener ?_)
      rw [Mailbox.producers_removeListener]
      exact List.filter_sublist.subset
    · exact .refl c'

theorem adds_notifyExit (c : Commons) (message : ExitMessage) (e : ExitBoxId) :
    Adds id c (c.notifyExit message e) := by
  unfold notifyExit
  split
  · refine Adds.trans ?_ (adds_wake _ _)
    exact adds_same c (List.Subset.refl _) rfl
  · exact .refl c

theorem adds_takeExit? {message : ExitMessage} {e : ExitBoxId}
    (take : c.takeExit? e = some (message, c')) : Adds id c c' := by
  unfold takeExit? at take
  split at take
  · cases take
    refine Adds.trans ?_ (adds_wake _ _)
    exact adds_same c (List.Subset.refl _) rfl
  · cases take

/-- What can become of a mailbox in one change. -/
inductive Goes (id : MailboxId) (c c' : Commons) : Prop
  | adds (adds : Adds id c c')
  /-- A message is taken, and a producer is woken. -/
  | takes {m m₁ m' : Mailbox Value} {v : Value} {woken : Option TaskId}
    (here : c.box? id = some m) (take : m.take? = some (v, woken, m₁)) (ring : m'.ring = m₁.ring)
    (line : m'.producers = m₁.producers) (same : c' = (c.setBox id m').wake woken)
  /-- The mailbox is made. -/
  | makes {m : Mailbox Value} (absent : c.box? id = none) (queue : c'.queue = c.queue)
    (here : c'.box? id = some m) (sized : m.ring.max ≤ Ring.largest → m.ring.Sized)
    (line : m.producers = [])

theorem Goes.queue (h : Goes id c c') : c.queue ⊆ c'.queue := by
  cases h with
  | adds adds => exact adds.queue
  | @takes m m₁ m' v woken _ _ _ _ same =>
    have wakes : Adds id (c.setBox id m') ((c.setBox id m').wake woken) := adds_wake _ woken
    rw [same]
    exact wakes.queue
  | makes _ queue _ _ _ =>
    rw [queue]
    exact List.Subset.refl _

theorem goes_getNb (c : Commons) (box : MailboxId) : Goes id c (c.getNb box).2 := by
  unfold getNb
  split
  · rename_i v woken m' taken
    obtain ⟨m, here, take⟩ := Option.bind_eq_some_iff.1 taken
    by_cases same : id = box
    · subst same
      exact .takes here take rfl rfl rfl
    · exact .adds (adds_setBox_wake here (fun same' => absurd same' same) woken)
  · exact .adds (.refl c)

theorem goes_get (c : Commons) (f : Fiber) (box : MailboxId) : Goes id c (c.get f box).2.1 := by
  unfold get
  cases here : c.box? box with
  | none => exact .adds (.refl c)
  | some m =>
    simp only
    cases take : m.take? with
    | some taken =>
      obtain ⟨v, woken, m'⟩ := taken
      by_cases same : id = box
      · subst same
        refine .takes here take ?_ ?_ rfl
        · split
          · unfold Mailbox.removeConsumer
            split <;> rfl
          · rfl
        · split
          · unfold Mailbox.removeConsumer
            split <;> rfl
          · rfl
      · exact .adds (adds_setBox_wake here (fun same' => absurd same' same) woken)
    | none =>
      have waits : ∀ t, Adds id c (c.setBox box (m.await t)) := fun t =>
        adds_setBox here (Mailbox.grows_ring rfl (List.Subset.refl _))
      simp only
      repeat' split
      all_goals first
        | exact .adds (.refl c)
        | exact .adds (waits _)

theorem goes_addBox (c : Commons) (sized : m.ring.max ≤ Ring.largest → m.ring.Sized)
    (line : m.producers = []) : Goes id c (c.addBox m).2 := by
  have found : ∀ m₀, c.box? id = some m₀ → (c.addBox m).2.box? id = some m₀ := fun m₀ here =>
    List.getElem?_append_left (List.getElem?_eq_some_iff.1 here).1 |>.trans here
  cases here : c.box? id with
  | some m₀ =>
    refine .adds ⟨List.Subset.refl _, fun m' there => ?_, fun absent => ?_⟩
    · exact ⟨m', found m' there, .refl m'⟩
    · rw [here] at absent
      cases absent
  | none =>
    cases new : (c.addBox m).2.box? id with
    | none =>
      refine .adds ⟨List.Subset.refl _, fun m' there => ?_, fun _ => new⟩
      rw [here] at there
      cases there
    | some m' =>
      obtain rfl : m' = m := by
        unfold box? addBox at new
        unfold box? at here
        rw [List.getElem?_append_right (List.getElem?_eq_none_iff.1 here)] at new
        exact List.mem_singleton.1 (List.mem_of_getElem? new)
      exact .makes here rfl new sized line

/-- Whatever is asked for. -/
theorem goes_perform (op : Op) (c : Commons) (f : Fiber) : Goes id c (op.perform c f).2.1 := by
  cases op with
  | getNb box => exact goes_getNb c box
  | putNb box v => exact .adds (adds_putNb c box v)
  | get box => exact goes_get c f box
  | put box v => exact .adds (adds_put c f box v)
  | makeBox max =>
    refine goes_addBox c (fun fits => ?_) rfl
    exact Ring.sized_ofCapacity (Nat.le_trans (Nat.le_max_left _ _) fits)
  | start t => exact .adds (adds_startFrom c f.task t)
  | resume t => exact .adds (adds_resume c t)
  | setFlag flag raised =>
    refine .adds ?_
    change Adds id c (c.setFlag flag raised)
    unfold setFlag
    repeat' split
    all_goals exact adds_same c (List.Subset.refl _) rfl
  | _ => exact .adds (adds_same c (List.Subset.refl _) rfl)

theorem Foreign.goes (h : c.Foreign c') : Goes id c c' := by
  cases h with
  | start t => exact .adds (adds_start c t)
  | ask op detached => exact goes_perform op c _
  | tryPut box v => exact .adds (adds_tryPut c box v)
  | advance time => exact .adds (adds_advance c time)
  | makeBox made =>
    obtain ⟨sized, -, -, line⟩ := made.empty
    exact goes_addBox c (fun _ => sized) line
  | _ => exact .adds (adds_same c (List.Subset.refl _) rfl)

end Commons

/-! ## Runs with an account -/

namespace Shift

variable {k k' : Shift} {t u : TaskId} {id : MailboxId} {a : Calls} {who : Option TaskId}
  {m : Mailbox Value}

/-- A task stands in the queue or is driven. -/
def Up (k : Shift) (t : TaskId) : Prop := t ∈ k.commons.queue ∨ k.post t = .driven

/-- The drive of a task ends in a step. -/
def Ends (k k' : Shift) (t : TaskId) : Prop := k.post t = .driven ∧ k'.post t ≠ .driven

instance (k k' : Shift) : DecidablePred (k.Ends k') := fun _ => inferInstanceAs (Decidable (_ ∧ _))

/-- A task that is driven has asked for something. -/
def requested (k : Shift) (t : TaskId) (op : Op) : Shift :=
  k.set t (op.perform k.commons (k.fibers t)).2.1 (op.perform k.commons (k.fibers t)).2.2 .driven

/-- The account of a mailbox after a step, perhaps a request of the task `who`. -/
def observe (k k' : Shift) (id : MailboxId) (who : Option TaskId) (a : Calls) : Calls :=
  match k.commons.box? id, k'.commons.box? id with
  | some m, some m' => (a.after who m m').lapse fun t => k.Ends k' t
  | _, _ => .clear

/-- What can happen before the executor is shut down, with the account of a mailbox. -/
inductive Watched (id : MailboxId) : Shift → Calls → Prop
  | initial : Watched id initial .clear
  /-- A body asks for something; a message that it puts is its own. -/
  | request {k : Shift} {a : Calls} {t : TaskId} (before : Watched id k a)
      (driven : k.post t = .driven) (op : Op)
      (accepts : (k.requested t op).commons.accepts = true) :
    Watched id (k.requested t op) (k.observe (k.requested t op) id (some t) a)
  /-- Anything else happens. -/
  | other {k k' : Shift} {a : Calls} (before : Watched id k a) (step : Next k k')
      (accepts : k'.commons.accepts = true) :
    Watched id k' (k.observe k' id none a)

theorem Watched.reaches (h : Watched id k a) : Reaches Shift.initial k := by
  induction h with
  | initial => exact .refl
  | request _ driven op _ ih => exact ih.tail (.request driven op)
  | other _ step _ ih => exact ih.tail step

theorem Watched.accepts (h : Watched id k a) : k.commons.accepts = true := by
  cases h with
  | initial => rfl
  | request _ _ _ accepts => exact accepts
  | other _ _ accepts => exact accepts

/-! ### Tasks that wait can be woken -/

/-- A task that listens to a mailbox may be woken: it was started, and its worker is sound. -/
def Rousable (k : Shift) : Prop :=
  ∀ t id, k.Listens t id →
    k.post t ≠ .fallen ∧ ∃ r, k.commons.task? t = some r ∧ r.started = true

/-- One task moves on. -/
theorem listens_update {fiber : Fiber} (post : Post)
    (knows : id ∈ (Function.update k.fibers t fiber u).listening) :
    u = t ∧ id ∈ fiber.listening ∧ Function.update k.post t post u = post ∨
      k.Listens u id ∧ Function.update k.post t post u = k.post u := by
  by_cases same : u = t
  · subst same
    rw [Function.update_self] at knows ⊢
    exact Or.inl ⟨rfl, knows, rfl⟩
  · rw [Function.update_of_ne same] at knows ⊢
    exact Or.inr ⟨knows, rfl⟩

/-- Who listens after a step is driven, or listened before and has not fallen since. -/
theorem listens_next (step : Next k k') (knows : k'.Listens u id) :
    k'.post u = .driven ∨ k.Listens u id ∧ (k'.post u = k.post u ∨ k'.post u = .home) := by
  cases step with
  | begin next =>
    rcases listens_update .driven knows with ⟨-, none, -⟩ | ⟨known, same⟩
    · cases none
    · exact Or.inr ⟨known, Or.inl same⟩
  | request driven op =>
    rcases listens_update .driven knows with ⟨-, -, same⟩ | ⟨known, same⟩
    · exact Or.inl same
    · exact Or.inr ⟨known, Or.inl same⟩
  | pause driven here why reason =>
    rcases listens_update .home knows with ⟨rfl, known, same⟩ | ⟨known, same⟩
    · exact Or.inr ⟨known, Or.inr same⟩
    · exact Or.inr ⟨known, Or.inl same⟩
  | finish driven here result reason =>
    rcases listens_update .home knows with ⟨-, none, -⟩ | ⟨known, same⟩
    · cases none
    · exact Or.inr ⟨known, Or.inl same⟩
  | fall driven =>
    rcases listens_update .fallen knows with ⟨-, none, -⟩ | ⟨known, same⟩
    · cases none
    · exact Or.inr ⟨known, Or.inl same⟩
  | _ => exact Or.inr ⟨knows, Or.inl rfl⟩

theorem rousable (run : Reaches initial k) : k.Rousable := by
  induction run with
  | refl =>
    intro t id knows
    cases knows
  | @tail k k' run step ih =>
    obtain ⟨sound, later⟩ := (sound_initial.reaches run).1.next step
    intro u id knows
    rcases listens_next step knows with driven | ⟨known, same⟩
    · obtain ⟨r, here, -, started, -⟩ := sound.orderly.running (away_of_driven driven)
      refine ⟨fun fallen => ?_, r, here, started⟩
      rw [driven] at fallen
      cases fallen
    · obtain ⟨stands, r, here, started⟩ := ih u id known
      obtain ⟨r', there, becomes⟩ := later u r here
      refine ⟨fun fallen => ?_, r', there, becomes.started started⟩
      rcases same with same | home
      · exact stands (same.symm.trans fallen)
      · rw [home] at fallen
        cases fallen

/-- A task that waits on a mailbox is up after it was woken. -/
theorem up_wake (run : Reaches initial k) (accepts : k.commons.accepts = true)
    (knows : k.Listens t id) {box : MailboxId} {m' : Mailbox Value} :
    k.Up t ∨ t ∈ ((k.commons.setBox box m').wake (some t)).queue := by
  have tidy := k.tidy run
  obtain ⟨stands, r, here, started⟩ := rousable run t id knows
  obtain ⟨r', there, none⟩ := tidy.alive t id knows
  rw [here] at there
  cases there
  have orderly := tidy.sound.orderly
  have goesOn : r.done = false := by
    refine Bool.eq_false_iff.2 fun done => ?_
    obtain ⟨-, given⟩ := (orderly.sound t r here).done done
    rw [none] at given
    cases given
  cases running : r.running with
  | true =>
    have runs : k.commons.status? t = some .running := Commons.status?_eq_some_iff.2
      ⟨r, here, TaskRecord.status_eq_running_iff.2 ⟨goesOn, started, running⟩⟩
    rcases (orderly.running_iff t).1 runs with queued | away
    · exact Or.inl (Or.inl queued)
    · refine Or.inl (Or.inr ?_)
      unfold Away at away
      cases post : k.post t with
      | home => exact absurd post away
      | driven => rfl
      | fallen => exact absurd post stands
  | false =>
    have paused : r.status = .paused :=
      TaskRecord.status_eq_paused_iff.2 ⟨goesOn, started, running⟩
    have orderly' := (Commons.keeps_setBox k.commons box m' orderly).1
    have woken : (k.commons.setBox box m').resume t = _ :=
      orderly'.resume_paused here paused accepts
    refine Or.inr ?_
    change t ∈ ((k.commons.setBox box m').resume t).queue
    rw [woken]
    exact List.mem_append_right _ (List.mem_singleton_self t)

/-! ### Every step keeps the account -/

/-- What can become of a mailbox and of the queue in one step. -/
inductive Goes (id : MailboxId) (k k' : Shift) : Prop
  /-- A task may leave the queue to be driven. -/
  | adds {c : Commons} (boxes : c.boxes = k.commons.boxes) (adds : c.Adds id k'.commons)
    (queue : ∀ u ∈ k.commons.queue, u ∈ c.queue ∨ k'.post u = .driven)
  | goes (goes : k.commons.Goes id k'.commons) (post : k'.post = k.post)

theorem goes_next (step : Next k k') : k.Goes id k' := by
  have keeps : ∀ {k' : Shift}, k.commons.Adds id k'.commons → k.Goes id k' := fun adds =>
    .adds rfl adds fun _ => Or.inl
  cases step with
  | outside change => exact .goes change.goes rfl
  | @begin t queue next =>
    have left : Commons.Adds id { k.commons with queue } _ :=
      Commons.adds_stopListening _ (k.fibers t)
    have same : ({ k.commons with queue } : Commons).boxes = k.commons.boxes := rfl
    refine .adds same left fun u queued => ?_
    rw [next] at queued
    rcases List.mem_cons.1 queued with rfl | queued
    · exact Or.inr (Function.update_self ..)
    · exact Or.inl queued
  | @request t driven op =>
    refine .goes (Commons.goes_perform op k.commons (k.fibers t)) ?_
    exact driven ▸ Function.update_eq_self t k.post
  | pause driven here why reason => exact keeps (Commons.adds_same _ (List.Subset.refl _) rfl)
  | @finish t r driven here result reason =>
    refine keeps ((Commons.adds_stopListening k.commons (k.fibers t)).trans ?_)
    exact Commons.adds_same (k.quiet t) (List.Subset.refl _) rfl
  | fall driven => exact keeps (Commons.adds_stopListening k.commons _)
  | register here unended box => exact keeps (Commons.adds_same _ (List.Subset.refl _) rfl)
  | late here given box => exact keeps (.refl _)
  | deliver parts => exact keeps (Commons.adds_notifyExit _ _ _)
  | stray n => exact keeps (Commons.adds_notifyExit _ _ _)
  | takeExit take => exact keeps (Commons.adds_takeExit? take)

/-- A task stays up until its drive ends. -/
theorem up_next (step : Next k k') (up : k.Up t) : k'.Up t ∨ k.Ends k' t := by
  rcases up with queued | driven
  · refine Or.inl ?_
    -- the queue is the same whichever mailbox one looks at
    have goes : k.Goes ⟨0⟩ k' := goes_next step
    rcases goes with ⟨-, adds, queue⟩ | ⟨goes, -⟩
    · exact (queue t queued).imp (fun queued => adds.queue queued) id
    · exact Or.inl (goes.queue queued)
  · by_cases still : k'.post t = .driven
    · exact Or.inl (Or.inr still)
    · exact Or.inr ⟨driven, still⟩

/-- The account of a mailbox is in balance. -/
structure Balanced (id : MailboxId) (k : Shift) (a : Calls) : Prop where
  sized : ∀ m, k.commons.box? id = some m → m.ring.max ≤ Ring.largest → m.ring.Sized
  fills : ∀ m, k.commons.box? id = some m → m.ring.max ≤ Ring.largest → a.Fills m
  up : ∀ t ∈ a.owing, t ∈ a.lapsed ∨ k.Up t

theorem observe_some {m' : Mailbox Value} (here : k.commons.box? id = some m)
    (here' : k'.commons.box? id = some m') :
    k.observe k' id who a = (a.after who m m').lapse fun t => k.Ends k' t := by
  unfold observe
  rw [here, here']

theorem observe_none (absent : k.commons.box? id = none) : k.observe k' id who a = .clear := by
  unfold observe
  rw [absent]

/-- A message is taken from a mailbox and a producer is woken, or the mailbox grows. -/
theorem box_next {m' : Mailbox Value} (step : Next k k') (here : k.commons.box? id = some m)
    (here' : k'.commons.box? id = some m') : m.Grows m' ∨ ∃ v woken m₁,
      m.take? = some (v, woken, m₁) ∧ m'.ring = m₁.ring ∧ m'.producers = m₁.producers ∧
        k'.commons = (k.commons.setBox id m').wake woken := by
  have grows : ∀ {c : Commons}, c.boxes = k.commons.boxes → c.Adds id k'.commons →
      m.Grows m' := by
    intro c boxes adds
    obtain ⟨m₀, there, grows⟩ := adds.box m ((Commons.box?_congr boxes).trans here)
    rw [here'] at there
    cases there
    exact grows
  rcases goes_next step with ⟨boxes, adds, -⟩ | ⟨goes, -⟩
  · exact Or.inl (grows boxes adds)
  · cases goes with
    | adds adds => exact Or.inl (grows rfl adds)
    | @takes m₀ m₁ m₂ v woken found take ring line same =>
      rw [here] at found
      cases found
      have there : k'.commons.box? id = some m₂ := by
        rw [same]
        exact Commons.box?_setBox_wake here
      rw [here'] at there
      cases there
      exact Or.inr ⟨v, woken, m₁, take, ring, line, same⟩
    | makes absent =>
      rw [here] at absent
      cases absent

/-- A mailbox begins within its bounds, and nobody waits on it. -/
theorem box_made {m' : Mailbox Value} (step : Next k k') (absent : k.commons.box? id = none)
    (here' : k'.commons.box? id = some m') :
    (m'.ring.max ≤ Ring.largest → m'.ring.Sized) ∧ m'.producers = [] := by
  have stays : ∀ {c : Commons}, c.boxes = k.commons.boxes → ¬ c.Adds id k'.commons := by
    intro c boxes adds
    rw [adds.none ((Commons.box?_congr boxes).trans absent)] at here'
    cases here'
  rcases goes_next step with ⟨boxes, adds, -⟩ | ⟨goes, -⟩
  · exact absurd adds (stays boxes)
  · cases goes with
    | adds adds => exact absurd adds (stays rfl)
    | takes here =>
      rw [absent] at here
      cases here
    | makes _ _ there sized line =>
      rw [here'] at there
      cases there
      exact ⟨sized, line⟩

/-- The messages and those that are owed fill the mailbox after a step as well. -/
theorem Balanced.fills_next (h : Balanced id k a) (step : Next k k') (who : Option TaskId)
    {m' : Mailbox Value} (here' : k'.commons.box? id = some m')
    (fits : m'.ring.max ≤ Ring.largest) :
    m'.ring.Sized ∧ (k.observe k' id who a).Fills m' := by
  cases here : k.commons.box? id with
  | none =>
    obtain ⟨sized, line⟩ := box_made step here here'
    exact ⟨sized fits, fun waiting => absurd line waiting⟩
  | some m =>
    rw [observe_some here here']
    rcases box_next step here here' with grows | ⟨v, woken, m₁, take, ring, line, -⟩
    · have sized := h.sized m here (grows.max ▸ fits)
      exact ⟨grows.sized sized, (h.fills m here (grows.max ▸ fits)).grow sized grows⟩
    · have max : m'.ring.max = m.ring.max := by rw [ring, Mailbox.max_take? take]
      have sized := h.sized m here (max ▸ fits)
      obtain ⟨-, -, -, -, sized'⟩ := Mailbox.take?_eq_some sized take
      exact ⟨ring ▸ sized', (h.fills m here (max ▸ fits)).take sized take ring line⟩

/-- The producer that leaves the line because a message is taken is up then. -/
theorem up_first (run : Reaches initial k) (accepts : k.commons.accepts = true)
    (step : Next k k') {m' : Mailbox Value} (here : k.commons.box? id = some m)
    (here' : k'.commons.box? id = some m') (space : m'.hasSpace = true)
    (less : m'.ring.length < m.ring.length) (first : m.producers.head? = some t) :
    k'.Up t ∨ k.Ends k' t := by
  rcases box_next step here here' with grows | ⟨v, woken, m₁, take, ring, line, same⟩
  · exact absurd less (Nat.not_lt.2 grows.items)
  · have space₁ : m₁.hasSpace = true := by
      unfold Mailbox.hasSpace at space ⊢
      rw [← ring]
      exact space
    obtain rfl : woken = some t := (Mailbox.take?_woken take space₁).trans first
    have knows : k.Listens t id :=
      ((k.tidy run).boxes id m here).producers t (List.mem_of_mem_head? first)
    rcases up_wake run accepts knows with up | queued
    · exact up_next step up
    · rw [← same] at queued
      exact Or.inl (Or.inl queued)

/-- Every step keeps the account in balance, whoever a message is credited to. -/
theorem Balanced.next (h : Balanced id k a) (run : Reaches initial k)
    (accepts : k.commons.accepts = true) (step : Next k k') (who : Option TaskId) :
    Balanced id k' (k.observe k' id who a) where
  sized m' here' fits := (h.fills_next step who here' fits).1
  fills m' here' fits := (h.fills_next step who here' fits).2
  up t owes := by
    cases here : k.commons.box? id with
    | none =>
      rw [observe_none here] at owes
      cases owes
    | some m =>
      cases here' : k'.commons.box? id with
      | none =>
        unfold observe at owes
        rw [here, here'] at owes
        cases owes
      | some m' =>
        rw [observe_some here here'] at owes ⊢
        obtain ⟨lapsed, before⟩ := Calls.mem_owing_after owes
        have up : t ∈ a.lapsed ∨ k'.Up t ∨ k.Ends k' t := by
          rcases before with before | ⟨space, less, first⟩
          · exact (h.up t before).imp_right (up_next step)
          · exact Or.inr (up_first run accepts step here here' space less first)
        rcases up with lapsed' | up | ends
        · exact Or.inl (List.mem_append_left _ (lapsed ▸ lapsed'))
        · exact Or.inr up
        · refine Or.inl (List.mem_append_right _ (List.mem_filter.2 ⟨owes, ?_⟩))
          exact decide_eq_true ends

theorem Watched.balanced (h : Watched id k a) : Balanced id k a := by
  induction h with
  | initial => exact ⟨nofun, nofun, nofun⟩
  | request before driven op _ ih =>
    exact ih.next before.reaches before.accepts (.request driven op) _
  | other before step _ ih => exact ih.next before.reaches before.accepts step _

/-! ## What the account tells -/

/-- Space that tasks wait for is spoken for, by producers that owe a message. -/
structure Relays (k : Shift) (m : Mailbox Value) (a : Calls) : Prop where
  fills : a.Fills m
  /-- A producer that owes a message will be driven, unless it has given up. -/
  up : ∀ t ∈ a.owing, t ∈ a.lapsed ∨ k.Up t
  /-- When there is more space than producers have given up, one that did not is up. -/
  relayed : m.producers ≠ [] →
    a.owing.countP (· ∈ a.lapsed) < m.ring.max - m.ring.items.length →
      ∃ t ∈ a.owing, t ∉ a.lapsed ∧ k.Up t

/-- **A wakeup is lost only with a producer that gives up.**  Whatever bodies do, as long as
tasks wait for space on a mailbox, the producers that a message was taken for and that have put
none since account for all the space there is, and each of them is up unless its drive has
ended. -/
theorem Watched.relays (h : Watched id k a) (here : k.commons.box? id = some m)
    (fits : m.ring.max ≤ Ring.largest) : k.Relays m a where
  fills := h.balanced.fills m here fits
  up := h.balanced.up
  relayed waiting more := by
    have filled := h.balanced.fills m here fits waiting
    by_contra none
    have all : a.owing.countP (· ∈ a.lapsed) = a.owing.length := by
      refine List.countP_eq_length.2 fun t owes => decide_eq_true ?_
      rcases h.balanced.up t owes with lapsed | up
      · exact lapsed
      · by_contra stands
        exact none ⟨t, owes, stands, up⟩
    omega

/-- Three producers wait on a full mailbox for two messages.  Both messages are taken, and the
first producer ends without another one: the space that it leaves is lost to the third, and the
second is on the queue. -/
theorem relays_trio : ∃ k a m, Watched ⟨0⟩ k a ∧ k.commons.box? ⟨0⟩ = some m ∧
    m.ring.max ≤ Ring.largest ∧ k.Relays m a ∧ m.ring.items = [] ∧ m.producers = [⟨3⟩] ∧
    a.owing = [⟨1⟩, ⟨2⟩] ∧ a.lapsed = [⟨1⟩] ∧ k.commons.queue = [⟨2⟩] ∧
    ∃ t ∈ a.owing, t ∉ a.lapsed ∧ k.Up t := by
  have made := (Watched.initial : Watched ⟨0⟩ initial .clear).other
    (.outside (.makeBox (.bounded (show 2 ≤ Ring.largest by decide)))) rfl
  have filled := (made.other (.outside (.tryPut ⟨0⟩ .unit)) rfl).other
    (.outside (.tryPut ⟨0⟩ .unit)) rfl
  have tasks := ((filled.other (.outside .spawn) rfl).other (.outside .spawn) rfl).other
    (.outside .spawn) rfl
  have started := ((tasks.other (.outside (.start ⟨1⟩)) rfl).other
    (.outside (.start ⟨2⟩)) rfl).other (.outside (.start ⟨3⟩)) rfl
  have first := (started.other (.begin rfl) rfl).request (t := ⟨1⟩) rfl (.put ⟨0⟩ .unit) rfl
  have one := first.other (.pause (t := ⟨1⟩) rfl rfl (.waitingForSpace ⟨0⟩) none) rfl
  have second := (one.other (.begin rfl) rfl).request (t := ⟨2⟩) rfl (.put ⟨0⟩ .unit) rfl
  have two := second.other (.pause (t := ⟨2⟩) rfl rfl (.waitingForSpace ⟨0⟩) none) rfl
  have third := (two.other (.begin rfl) rfl).request (t := ⟨3⟩) rfl (.put ⟨0⟩ .unit) rfl
  have three := third.other (.pause (t := ⟨3⟩) rfl rfl (.waitingForSpace ⟨0⟩) none) rfl
  have taken := (three.other (.outside (.ask (.getNb ⟨0⟩) (f := .detached) rfl)) rfl).other
    (.outside (.ask (.getNb ⟨0⟩) (f := .detached) rfl)) rfl
  have begun := taken.other (.begin rfl) rfl
  have lapsed := begun.other (.finish (t := ⟨1⟩) rfl rfl (.ok .unit) none) rfl
  have relays := lapsed.relays rfl (by decide)
  have waiting : [(⟨3⟩ : TaskId)] ≠ [] := by decide
  exact ⟨_, _, _, lapsed, rfl, by decide, relays, rfl, rfl, rfl, rfl, rfl,
    relays.relayed waiting (by decide)⟩

end Shift

/-! ## A wakeup that is lost -/

/-- Producers of one message for the mailbox 0. -/
inductive Producer where
  /-- It waits for space once. -/
  | hasty
  /-- It has waited. -/
  | gone
  /-- It waits for space until there is some. -/
  | patient

/-- What a producer does when it is driven. -/
def Producer.drive : Producer → Drive Producer DriveEnd
  | .hasty => .ask (.put ⟨0⟩ .unit) fun (put : Bool) =>
    if put then .done (.ready (.ok .unit)) else .commit .gone fun _ => .done .pending
  | .gone => .done (.ready (.ok .unit))
  | .patient => .ask (.put ⟨0⟩ .unit) fun (put : Bool) =>
    .done (if put then .ready (.ok .unit) else .pending)

namespace TaskPool

/-- The pool after the next task of the queue was driven. -/
def next (s : TaskPool Producer) : TaskPool Producer :=
  (s.step? Producer.drive).elim s fun driven => driven.2.2

/-- A full mailbox, and two tasks in the queue that will put a message into it. -/
def crowded : TaskPool Producer :=
  let boxes := (Commons.empty.addBox (.bounded 1)).2
  let filled : TaskPool Producer := { empty with commons := (boxes.putNb ⟨0⟩ .unit).2 }
  let (_, one) := filled.spawn .hasty
  let (_, two) := one.spawn .patient
  { two with commons := ((two.commons.start ⟨1⟩).2.start ⟨2⟩).2 }

/-- Both tasks were driven, and then the message was taken. -/
def relieved : TaskPool Producer :=
  { crowded.next.next with commons := (crowded.next.next.commons.getNb ⟨0⟩).2 }

/-- **A producer that gives up keeps the wakeup.**  Two producers wait for space, a message is
taken, and the first one is driven and ends without a message for the mailbox.  The second one
waits for space on an empty mailbox, and nothing is left to drive. -/
theorem swallows :
    (crowded.next.next.commons.box? ⟨0⟩).map (·.producers) = some [⟨1⟩, ⟨2⟩] ∧
    relieved.commons.queue = [⟨1⟩] ∧
    (relieved.step? Producer.drive).map (·.1) = some ⟨1⟩ ∧
    relieved.next.commons.queue = [] ∧
    relieved.next.commons.status? ⟨1⟩ = some .done ∧
    relieved.next.commons.status? ⟨2⟩ = some .paused ∧
    relieved.next.commons.taskText ⟨2⟩ = "task#2 [Paused: waiting for space]" ∧
    (relieved.next.commons.box? ⟨0⟩).map (·.hasSpace) = some true ∧
    (relieved.next.commons.box? ⟨0⟩).map (·.producers) = some [⟨2⟩] := by
  decide +kernel

end TaskPool

end Resumable
