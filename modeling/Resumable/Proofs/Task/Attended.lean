import Resumable.Proofs.Mailbox.Tended
import Resumable.Proofs.Mailbox.Traffic
import Resumable.Proofs.Task.Orderly

/-!
# No task is forgotten

Tasks and mailboxes agree on who waits for what (`Commons.Attended`).  A task plays a part at
a mailbox when it is paused for it, or when it is about to be: it is still driven, has found
no message or no space, and its drive does nothing any more but come to its end.

A message that is owed to a mailbox comes from a task in the queue that was refused when it
put the message, or from such a task that is driven and has not tried again yet, the debt.

Messages that arrive (`Attended.give`), messages that are taken (`Attended.take`), tasks that
begin to wait (`Attended.await`, `Attended.enqueue`) and ends of drives keep this.
-/

namespace Resumable.Commons

variable {c c' : Commons} {t u w : TaskId} {why why' : PauseReason} {id : MailboxId}
  {m m' : Mailbox Value} {v : Value} {woken : Option TaskId} {away away' : TaskId → Prop}
  {pending pending' : TaskId → Option MailboxId} {about about' : Option (TaskId × PauseReason)}
  {debt debt' : Option MailboxId} {r r₀ : TaskRecord}

/-! ## Who waits for what -/

/-- A task is paused for a reason. -/
def Waits (c : Commons) (u : TaskId) (why : PauseReason) : Prop :=
  ∃ r, c.task? u = some r ∧ r.status = .paused ∧ r.reason = some why

/-- A task is paused for a reason, or it is the one that is about to be. -/
def Role (c : Commons) (about : Option (TaskId × PauseReason)) (u : TaskId) (why : PauseReason) :
    Prop :=
  c.Waits u why ∨ about = some (u, why)

/-- The number of messages that a mailbox can expect.  `pending` gives the mailbox that a task
puts a message into when it is driven. -/
def owed (c : Commons) (pending : TaskId → Option MailboxId) (debt : Option MailboxId)
    (id : MailboxId) : Nat :=
  c.queue.countP (fun t => pending t = some id) + if debt = some id then 1 else 0

/-- Every mailbox knows exactly who waits on it, and none of them waits in vain. -/
structure Attended (c : Commons) (pending : TaskId → Option MailboxId) (away : TaskId → Prop)
    (about : Option (TaskId × PauseReason)) (debt : Option MailboxId) : Prop where
  orderly : c.Orderly away
  accepts : c.accepts = true
  /-- Nobody waits on an exit mailbox. -/
  quiet : ∀ m ∈ c.exitBoxes, m.consumer = none ∧ m.producers = []
  tended : ∀ id m, c.box? id = some m → m.Tended id (c.Role about) (c.owed pending debt id)
  known : ∀ u id, c.Role about u (.waitingForMessage id) ∨ c.Role about u (.waitingForSpace id) →
    ∃ m, c.box? id = some m
  /-- A task that waits for space puts its message when it is driven again. -/
  retries : ∀ u id, c.Waits u (.waitingForSpace id) → pending u = some id
  leaving : ∀ u why, about = some (u, why) → away u

theorem Waits.status (waits : c.Waits u why) : c.status? u = some .paused := by
  obtain ⟨r, here, paused, -⟩ := waits
  exact status?_eq_some_iff.2 ⟨r, here, paused⟩

theorem Waits.unique (h : c.Waits u why) (h' : c.Waits u why') : why = why' := by
  obtain ⟨r, here, -, reason⟩ := h
  obtain ⟨r', there, -, reason'⟩ := h'
  rw [here] at there
  cases there
  exact Option.some.inj (reason.symm.trans reason')

theorem waits_congr (tasks : c'.tasks = c.tasks) : c'.Waits u why ↔ c.Waits u why := by
  unfold Waits task?
  rw [tasks]

/-- A task with another record. -/
theorem waits_setTask (here : c.task? t = some r₀) :
    (c.setTask t r).Waits u why ↔
      if u = t then r.status = .paused ∧ r.reason = some why else c.Waits u why := by
  unfold Waits
  rw [task?_setTask here]
  split
  · simp
  · exact Iff.rfl

theorem waits_setTask_awake (here : c.task? t = some r₀) (runs : r.status ≠ .paused) :
    (c.setTask t r).Waits u why ↔ c.Waits u why ∧ u ≠ t := by
  rw [waits_setTask here]
  split
  · rename_i same
    exact iff_of_false (fun waits => runs waits.1) (fun waits => waits.2 same)
  · rename_i ne
    exact (and_iff_left ne).symm

namespace Attended

/-- A task that is away is not paused. -/
theorem not_waits (h : c.Attended pending away about debt) (gone : away u) : ¬ c.Waits u why := by
  intro waits
  have running := (h.orderly.running_iff u).2 (Or.inr gone)
  rw [waits.status] at running
  cases running

/-- A task waits for one thing at a time. -/
theorem unique (h : c.Attended pending away about debt) (role : c.Role about u why)
    (role' : c.Role about u why') : why = why' := by
  rcases role with waits | leaves
  · rcases role' with waits' | leaves'
    · exact waits.unique waits'
    · exact absurd waits (h.not_waits (h.leaving u why' leaves'))
  · rcases role' with waits' | leaves'
    · exact absurd waits' (h.not_waits (h.leaving u why leaves))
    · rw [leaves] at leaves'
      cases leaves'
      rfl

/-- A task that is driven plays no part, unless it is about to. -/
theorem not_role (h : c.Attended pending away none debt) (gone : away u) :
    ¬ c.Role none u why := by
  rintro (waits | ⟨⟨⟩⟩)
  exact h.not_waits gone waits

/-- A change that leaves all mailboxes alone, and all tasks that wait. -/
theorem keep (h : c.Attended pending away about debt) (orderly : c'.Orderly away')
    (accepts : c'.accepts = true) (exits : c'.exitBoxes = c.exitBoxes)
    (boxes : c'.boxes = c.boxes)
    (role : ∀ u why, c'.Role about' u why ↔ c.Role about u why)
    (owed : ∀ id, c.owed pending debt id ≤ c'.owed pending' debt' id)
    (retries : ∀ u id, c'.Waits u (.waitingForSpace id) → pending' u = some id)
    (leaving : ∀ u why, about' = some (u, why) → away' u) :
    c'.Attended pending' away' about' debt' where
  orderly := orderly
  accepts := accepts
  quiet := by
    rw [exits]
    exact h.quiet
  tended id m here :=
    (h.tended id m (by rw [← box?_congr boxes]; exact here)).congr (fun u => role u _)
      (fun u => role u _) (owed id)
  known u id plays := by
    rw [role, role] at plays
    obtain ⟨m, here⟩ := h.known u id plays
    exact ⟨m, (box?_congr boxes).trans here⟩
  retries := retries
  leaving := leaving

end Attended

/-! ## Waking -/

theorem accepts_wake : (c.wake woken).accepts = c.accepts := by
  cases woken with
  | none => rfl
  | some t =>
    obtain ⟨tasks, queue, same⟩ := resume_eq c t
    change (c.resume t).accepts = c.accepts
    rw [same]
    rfl

theorem exitBoxes_wake : (c.wake woken).exitBoxes = c.exitBoxes := by
  cases woken with
  | none => rfl
  | some t =>
    obtain ⟨tasks, queue, same⟩ := resume_eq c t
    change (c.resume t).exitBoxes = c.exitBoxes
    rw [same]

theorem owed_queued (c : Commons) (t : TaskId) (r : TaskRecord) :
    (c.queued t r).owed pending debt id =
      c.owed pending debt id + if pending t = some id then 1 else 0 := by
  unfold owed
  rw [queue_queued, List.countP_append, List.countP_singleton]
  simp only [decide_eq_true_eq]
  omega

/-- What waking a task does to those that wait. -/
structure Woken (c : Commons) (pending : TaskId → Option MailboxId)
    (about about' : Option (TaskId × PauseReason)) (woken : Option TaskId) (c' : Commons) :
    Prop where
  role : ∀ u why, c'.Role about' u why ↔ c.Role about u why ∧ woken ≠ some u
  waits : ∀ u why, c'.Waits u why → c.Waits u why
  owed : ∀ debt id, c.owed pending debt id ≤ c'.owed pending debt id
  /-- A task that waited for space owes a message now. -/
  owes : ∀ u id, woken = some u → c.Waits u (.waitingForSpace id) →
    ∀ debt, c.owed pending debt id + 1 ≤ c'.owed pending debt id
  /-- The one that was about to wait does not wait any more, if it is the one that is
  woken. -/
  about : about' = about ∨ about' = none ∧ ∃ u why, woken = some u ∧ about = some (u, why)

/-- A task that waits goes to the queue. -/
theorem Attended.wakes_waiting (h : c.Attended pending away about debt) (waits : c.Waits w why) :
    Woken c pending about about (some w) ((c.setBox id m').resume w) := by
  have boxed : ∀ u why, (c.setBox id m').Waits u why ↔ c.Waits u why := fun u why => waits_congr rfl
  have other : ∀ u, some w ≠ some u ↔ u ≠ w := fun u => by rw [ne_eq, Option.some.injEq, eq_comm]
  have unleft : ∀ why, about ≠ some (w, why) := fun why leaves =>
    h.not_waits (h.leaving w why leaves) waits
  obtain ⟨r, here, paused, reason⟩ := waits
  have same : (c.setBox id m').resume w = (c.setBox id m').queued w { r with running := true } :=
    (keeps_setBox c id m' h.orderly).1.resume_paused here paused h.accepts
  have waits_iff : ∀ u why, ((c.setBox id m').resume w).Waits u why ↔ c.Waits u why ∧ u ≠ w := by
    intro u why
    rw [same, ← boxed u why]
    exact waits_setTask_awake here (by simp [TaskRecord.status_eq_paused_iff])
  have owed : ∀ debt id', ((c.setBox id m').resume w).owed pending debt id' =
      c.owed pending debt id' + if pending w = some id' then 1 else 0 := by
    intro debt id'
    rw [same, owed_queued]
    rfl
  refine ⟨fun u why => ?_, fun u why waits => ((waits_iff u why).1 waits).1, ?_, ?_, Or.inl rfl⟩
  · unfold Role
    rw [waits_iff, or_and_right, other]
    refine or_congr Iff.rfl (and_iff_left_of_imp fun leaves => ?_).symm
    rintro rfl
    exact unleft why leaves
  · intro debt id'
    rw [owed]
    exact Nat.le_add_right _ _
  · rintro u id' ⟨⟩ waits debt
    exact Nat.le_of_eq (by rw [owed, if_pos (h.retries w id' waits)])

/-- The one that is about to wait stays where it is: it is noticed when its drive comes to its
end. -/
theorem Attended.wakes_leaving (h : c.Attended pending away about debt)
    (leaves : about = some (w, why)) :
    Woken c pending about none (some w) ((c.setBox id m').resume w) := by
  have boxed : ∀ u why, (c.setBox id m').Waits u why ↔ c.Waits u why := fun u why => waits_congr rfl
  have gone := h.leaving w why leaves
  have same : (c.setBox id m').resume w = c.setBox id m' := by
    obtain ⟨r, here, paused, -⟩ | same := (keeps_setBox c id m' h.orderly).1.resume_cases w
    · have running := (h.orderly.running_iff w).2 (Or.inr gone)
      rw [show c.status? w = some .paused from status?_eq_some_iff.2 ⟨r, here, paused⟩] at running
      cases running
    · exact same
  rw [same]
  refine ⟨fun u why' => ?_, fun u why => (boxed u why).1, fun _ _ => Nat.le_refl _, ?_,
    Or.inr ⟨rfl, w, why, rfl, leaves⟩⟩
  · unfold Role
    rw [boxed, leaves]
    simp only [reduceCtorEq, or_false, Option.some.injEq, Prod.mk.injEq, ne_eq]
    constructor
    · intro waits
      refine ⟨Or.inl waits, ?_⟩
      rintro rfl
      exact h.not_waits gone waits
    · rintro ⟨waits | ⟨rfl, -⟩, ne⟩
      · exact waits
      · exact absurd rfl ne
  · rintro u id' ⟨⟩ waits
    exact absurd waits (h.not_waits gone)

theorem Attended.wakes (h : c.Attended pending away about debt) (id : MailboxId)
    (m' : Mailbox Value) (plays : ∀ u, woken = some u → ∃ why, c.Role about u why) :
    ∃ about', Woken c pending about about' woken ((c.setBox id m').wake woken) := by
  cases woken with
  | none =>
    refine ⟨about, ⟨fun u why => (and_iff_left nofun).symm, fun u why waits => ?_,
      fun _ _ => Nat.le_refl _, nofun, Or.inl rfl⟩⟩
    exact (waits_congr rfl).1 waits
  | some w =>
    obtain ⟨why, waits | leaves⟩ := plays w rfl
    · exact ⟨about, h.wakes_waiting waits⟩
    · exact ⟨none, h.wakes_leaving leaves⟩

/-! ## Messages -/

namespace Attended

/-- One mailbox changes, and the others are as well off as before. -/
theorem changeBox (h : c.Attended pending away about debt) (here : c.box? id = some m)
    (boxes : c'.boxes = (c.setBox id m').boxes) (exits : c'.exitBoxes = c.exitBoxes)
    (orderly : c'.Orderly away) (accepts : c'.accepts = true)
    (tended : m'.Tended id (c'.Role about') (c'.owed pending debt' id))
    (elsewhere : ∀ id', id' ≠ id →
      (∀ u, c'.Role about' u (.waitingForMessage id') ↔ c.Role about u (.waitingForMessage id')) ∧
      (∀ u, c'.Role about' u (.waitingForSpace id') ↔ c.Role about u (.waitingForSpace id')) ∧
      c.owed pending debt id' ≤ c'.owed pending debt' id')
    (waits : ∀ u why, c'.Waits u why → c.Waits u why)
    (leaving : ∀ u why, about' = some (u, why) → away u) :
    c'.Attended pending away about' debt' where
  orderly := orderly
  accepts := accepts
  quiet := by
    rw [exits]
    exact h.quiet
  tended id' m₀ there := by
    rw [box?_congr boxes, box?_setBox here] at there
    split at there
    · rename_i same
      cases there
      rw [same]
      exact tended
    · rename_i ne
      obtain ⟨message, space, owed⟩ := elsewhere id' ne
      exact (h.tended id' m₀ there).congr message space owed
  known u id' plays := by
    rw [box?_congr boxes, box?_setBox here]
    split
    · exact ⟨m', rfl⟩
    · rename_i ne
      obtain ⟨message, space, -⟩ := elsewhere id' ne
      exact h.known u id' (plays.imp (message u).1 (space u).1)
  retries u id' there := h.retries u id' (waits u _ there)
  leaving := leaving

/-- A mailbox is replaced and a task that plays a part there is woken. -/
theorem replace (h : c.Attended pending away about debt) (here : c.box? id = some m)
    (woke : Woken c pending about about' woken ((c.setBox id m').wake woken))
    (apart : ∀ u, woken = some u → c.Role about u (.waitingForMessage id) ∨
      c.Role about u (.waitingForSpace id))
    (owed : ∀ id', id' ≠ id → c.owed pending debt id' ≤ c.owed pending debt' id')
    (tended : m'.Tended id (((c.setBox id m').wake woken).Role about')
      (((c.setBox id m').wake woken).owed pending debt' id)) :
    ((c.setBox id m').wake woken).Attended pending away about' debt' := by
  refine h.changeBox here boxes_wake exitBoxes_wake
    (keeps_wake _ woken (keeps_setBox c id m' h.orderly).1).1 (accepts_wake.trans h.accepts) tended
    (fun id' ne => ⟨fun u => ?_, fun u => ?_, ?_⟩) woke.waits fun u why leaves => ?_
  -- the task that is woken plays its part at the mailbox that changes
  · refine (woke.role u _).trans (and_iff_left_of_imp fun role same => ?_)
    rcases apart u same with role' | role'
    · cases h.unique role role'
      exact ne rfl
    · cases h.unique role role'
  · refine (woke.role u _).trans (and_iff_left_of_imp fun role same => ?_)
    rcases apart u same with role' | role'
    · cases h.unique role role'
    · cases h.unique role role'
      exact ne rfl
  · exact Nat.le_trans (owed id' ne) (woke.owed debt' id')
  · rcases woke.about with same | ⟨same, -⟩
    · exact h.leaving u why (same ▸ leaves)
    · rw [same] at leaves
      cases leaves

/-- A message arrives.  It may pay a debt.  If the one that is about to wait is woken, there
is a message for it. -/
theorem give (h : c.Attended pending away about debt) (here : c.box? id = some m)
    (give : m.give? v = some (woken, m')) (paid : debt' = debt ∨ debt = some id ∧ debt' = none) :
    ∃ about', ((c.setBox id m').wake woken).Attended pending away about' debt' ∧
      (about' = about ∨ about' = none ∧ ∃ u, about = some (u, .waitingForMessage id)) := by
  have tended := h.tended id m here
  obtain ⟨rfl, -⟩ := Mailbox.give?_eq_some tended.sized give
  have plays : ∀ u, m.consumer = some u → c.Role about u (.waitingForMessage id) :=
    fun u => (tended.consumer u).1
  obtain ⟨about', woke⟩ := h.wakes id m' fun u same => ⟨_, plays u same⟩
  have owed : ∀ id', c.owed pending debt id' ≤
      c.owed pending debt' id' + if id' = id then 1 else 0 := by
    intro id'
    unfold Commons.owed
    rcases paid with rfl | ⟨rfl, rfl⟩
    · omega
    · simp only [Option.some.injEq, eq_comm (a := id), reduceCtorEq, if_false]
      omega
  refine ⟨about', h.replace here woke (fun u same => Or.inl (plays u same)) ?_ ?_, ?_⟩
  · intro id' ne
    have less := owed id'
    rw [if_neg ne] at less
    exact less
  · refine tended.give ?_ give woke.role ?_
    · exact fun u role role' => nomatch h.unique role role'
    · have less := owed id
      rw [if_pos rfl] at less
      exact Nat.le_trans less (Nat.add_le_add_right (woke.owed debt' id) 1)
  · rcases woke.about with same | ⟨same, u, why, waits, leaves⟩
    · exact Or.inl same
    · have role := plays u waits
      have role' : c.Role about u why := Or.inr leaves
      rw [h.unique role' role] at leaves
      exact Or.inr ⟨same, u, leaves⟩

/-- A message is taken while nobody is about to wait. -/
theorem take (h : c.Attended pending away none debt) (here : c.box? id = some m)
    (take : m.take? = some (v, woken, m')) :
    ((c.setBox id m').wake woken).Attended pending away none debt := by
  have tended := h.tended id m here
  obtain ⟨rest, items, same, -, -⟩ := Mailbox.take?_eq_some tended.sized take
  have plays : ∀ u, woken = some u → c.Role none u (.waitingForSpace id) := by
    intro u first
    rw [same] at first
    exact (tended.producers u).1 (List.mem_of_mem_head? first)
  obtain ⟨about', woke⟩ := h.wakes id m' fun u first => ⟨_, plays u first⟩
  obtain rfl : about' = none := by
    rcases woke.about with same | ⟨same, -⟩
    · exact same
    · exact same
  refine h.replace here woke (fun u first => Or.inr (plays u first)) (fun _ _ => Nat.le_refl _) ?_
  refine tended.take take woke.role fun some => ?_
  obtain ⟨u, first⟩ := Option.ne_none_iff_exists'.1 some
  rcases plays u first with waits | ⟨⟨⟩⟩
  exact woke.owes u id first waits debt

/-- An outsider puts a message, or a timer does. -/
theorem putNb (h : c.Attended pending away about debt) (id : MailboxId) (v : Value) :
    ∃ about', (c.putNb id v).2.Attended pending away about' debt ∧
      (about' = about ∨ about' = none ∧ ∃ u m', about = some (u, .waitingForMessage id) ∧
        (c.putNb id v).2.box? id = some m' ∧ m'.ring.items ≠ []) := by
  unfold Commons.putNb
  cases here : c.box? id with
  | none => exact ⟨about, h, Or.inl rfl⟩
  | some m =>
    rw [Option.bind_some]
    cases give : m.give? v with
    | none => exact ⟨about, h, Or.inl rfl⟩
    | some given =>
      obtain ⟨woken, m'⟩ := given
      obtain ⟨about', h', same⟩ := h.give here give (Or.inl rfl)
      refine ⟨about', h', same.imp_right fun ⟨same, u, leaves⟩ => ⟨same, u, m', leaves, ?_, ?_⟩⟩
      · exact box?_setBox_wake here
      · obtain ⟨-, -, items, -⟩ := Mailbox.give?_eq_some (h.tended id m here).sized give
        rw [items]
        exact List.append_ne_nil_of_right_ne_nil _ (List.cons_ne_nil _ _)

theorem getNb (h : c.Attended pending away none debt) (id : MailboxId) :
    (c.getNb id).2.Attended pending away none debt := by
  unfold Commons.getNb
  cases here : c.box? id with
  | none => exact h
  | some m =>
    rw [Option.bind_some]
    cases take : m.take? with
    | none => exact h
    | some taken => exact h.take here take

/-! ### Tasks that begin to wait -/

/-- A mailbox that does not exist cannot be owed anything. -/
theorem forgive (h : c.Attended pending away about debt)
    (unpaid : ∀ id, debt = some id → c.box? id = none) : c.Attended pending away about none where
  orderly := h.orderly
  accepts := h.accepts
  quiet := h.quiet
  tended id m here := by
    refine (h.tended id m here).congr (fun _ => Iff.rfl) (fun _ => Iff.rfl) ?_
    unfold Commons.owed
    have other : debt ≠ some id := fun same => by
      rw [unpaid id same] at here
      cases here
    simp [other]
  known := h.known
  retries := h.retries
  leaving := h.leaving

/-- A task that does not stand in a line is not missed there. -/
theorem filter_ne_of_absent {line : List TaskId} (absent : t ∉ line) :
    line.filter (fun u => some t ≠ some u) = line := by
  rw [List.filter_eq_self]
  intro u waits
  simp only [ne_eq, Option.some.injEq, decide_not, Bool.not_eq_eq_eq_not, Bool.not_true,
    decide_eq_false_iff_not]
  rintro rfl
  exact absent waits

/-- A task that is driven begins to play a part at a mailbox. -/
theorem begin (h : c.Attended pending away none debt) (here : c.box? id = some m) (gone : away t)
    (part : why = .waitingForMessage id ∨ why = .waitingForSpace id)
    (owed : ∀ id', id' ≠ id → c.owed pending debt id' ≤ c.owed pending debt' id')
    (tended : m'.Tended id (c.Role (some (t, why))) (c.owed pending debt' id)) :
    (c.setBox id m').Attended pending away (some (t, why)) debt' := by
  refine h.changeBox here rfl rfl (keeps_setBox c id m' h.orderly).1 h.accepts tended
    (fun id' ne => ⟨fun u => ?_, fun u => ?_, owed id' ne⟩) (fun _ _ waits => waits)
    fun u why' leaves => ?_
  · refine or_congr Iff.rfl (iff_of_false ?_ nofun)
    rintro ⟨⟩
    rcases part with ⟨⟨⟩⟩ | ⟨⟨⟩⟩
    exact ne rfl
  · refine or_congr Iff.rfl (iff_of_false ?_ nofun)
    rintro ⟨⟩
    rcases part with ⟨⟨⟩⟩ | ⟨⟨⟩⟩
    exact ne rfl
  · cases leaves
    exact gone

/-- The task that is driven is about to wait for a message. -/
theorem await (h : c.Attended pending away none none) (here : c.box? id = some m) (gone : away t)
    (items : m.ring.items = []) (waits : m.consumer = none ∨ m.consumer = some t) :
    (c.setBox id (m.await t)).Attended pending away (some (t, .waitingForMessage id)) none := by
  have tended := h.tended id m here
  have free : m.consumer = none := by
    refine waits.resolve_right fun same => ?_
    exact h.not_role gone ((tended.consumer t).1 same)
  refine h.begin here gone (Or.inl rfl) (fun _ _ => Nat.le_refl _) (tended.await free items ?_ ?_)
  · exact fun u => by simp [Role, or_comm, eq_comm]
  · exact fun u => by simp [Role]

/-- The task that is driven is about to wait for space, perhaps with a message that was owed. -/
theorem enqueue (h : c.Attended pending away none debt) (here : c.box? id = some m)
    (gone : away t) (owes : debt = none ∨ debt = some id)
    (full : m.ring.items.length = m.ring.max) :
    (c.setBox id (m.enqueue t)).Attended pending away (some (t, .waitingForSpace id)) none := by
  have tended := h.tended id m here
  have absent : t ∉ m.producers := fun waits => h.not_role gone ((tended.producers t).1 waits)
  refine h.begin here gone (Or.inr rfl) (fun id' ne => ?_) (tended.enqueue absent full ?_ ?_)
  · unfold Commons.owed
    rcases owes with rfl | rfl
    · exact Nat.le_refl _
    · simp [Ne.symm ne]
  · exact fun u => by simp [Role]
  · exact fun u => by simp [Role, or_comm, eq_comm]

/-- A fiber gets a message, or its task is about to wait for one. -/
theorem get (h : c.Attended pending away none none) {f f' : Fiber} (gone : away t)
    (task : f.task = some t) {r : Option Value} (answer : c.get f id = (.ok r, c', f')) :
    (c'.Attended pending away none none ∧ f' = f) ∨
      r = none ∧ c'.Attended pending away (some (t, .waitingForMessage id)) none ∧
        f' = (f.listen id).pause (.waitingForMessage id) := by
  cases here : c.box? id with
  | none =>
    unfold Commons.get at answer
    rw [here] at answer
    cases answer
    exact Or.inl ⟨h, rfl⟩
  | some m =>
    have tended := h.tended id m here
    obtain ⟨v, rest, m', items, ring, producers, consumer, same⟩ |
      ⟨t', items, task', waits, same⟩ | ⟨e, -, same⟩ := get_cases here tended.sized f
    · rw [same] at answer
      cases answer
      have free : m.consumer = none := tended.consumer_none (by rw [items]; exact nofun)
      have unchanged : m'.consumer = m.consumer := by
        rcases consumer with same | none
        · exact same
        · exact none.trans free.symm
      have taken : m' = { m with
          ring := { m.ring with items := rest }, producers := m.producers.tail } := by
        rw [← ring, ← producers, ← unchanged]
      rw [taken]
      exact Or.inl ⟨h.take here (Mailbox.take?_of_items tended.sized items), rfl⟩
    · rw [same] at answer
      cases answer
      obtain rfl : t = t' := Option.some.inj (task.symm.trans task')
      exact Or.inr ⟨rfl, h.await here gone items waits, rfl⟩
    · rw [same] at answer
      cases answer

/-- A fiber puts a message, perhaps one that was owed, or its task is about to wait for
space. -/
theorem put (h : c.Attended pending away none debt) {f f' : Fiber} (gone : away t)
    (task : f.task = some t) (owes : debt = none ∨ debt = some id) {r : Bool}
    (answer : c.put f id v = (.ok r, c', f')) :
    (c'.Attended pending away none none ∧ f' = f) ∨
      r = false ∧ c'.Attended pending away (some (t, .waitingForSpace id)) none ∧
        f' = (f.listen id).pause (.waitingForSpace id) ∧
        ∃ m', c'.box? id = some m' ∧ m'.ring.items.length = m'.ring.max := by
  cases here : c.box? id with
  | none =>
    unfold Commons.put at answer
    rw [here] at answer
    cases answer
    refine Or.inl ⟨h.forgive fun id' same => ?_, rfl⟩
    rcases owes with free | owed
    · rw [free] at same
      cases same
    · rw [owed] at same
      cases same
      exact here
  | some m =>
    have tended := h.tended id m here
    have absent : t ∉ m.producers := fun waits => h.not_role gone ((tended.producers t).1 waits)
    obtain ⟨m', m'', -, give, rfl, same⟩ | ⟨t', full, task', same⟩ | ⟨-, -, same⟩ :=
      put_cases here tended.sized f v
    · rw [same] at answer
      cases answer
      obtain ⟨-, given, -⟩ := Mailbox.give?_eq_some tended.sized give
      have unchanged : ({ m' with
          producers := m.producers.filter fun u => f.task ≠ some u } : Mailbox Value) = m' := by
        have line : m'.producers = m.producers := by rw [given]
        rw [task, filter_ne_of_absent absent, ← line]
      obtain ⟨about', h', same⟩ := h.give here give
        (owes.imp (fun free => free.symm) fun owed => ⟨owed, rfl⟩)
      obtain rfl : about' = none := by
        rcases same with same | ⟨same, -⟩
        · exact same
        · exact same
      rw [unchanged]
      exact Or.inl ⟨h', rfl⟩
    · rw [same] at answer
      cases answer
      obtain rfl : t = t' := Option.some.inj (task.symm.trans task')
      refine Or.inr ⟨rfl, h.enqueue here gone owes full, rfl, m.enqueue t, ?_, ?_⟩
      · rw [box?_setBox here, if_pos rfl]
      · unfold Mailbox.enqueue
        rw [if_neg absent]
        exact full
    · rw [same] at answer
      cases answer

/-! ### Tasks that cease to wait -/

/-- A task that is driven leaves one mailbox. -/
theorem forget (h : c.Attended pending away about debt) (gone : away t)
    (mine : ∀ u why, about' = some (u, why) ↔ about = some (u, why) ∧
      (u = t → why ≠ .waitingForMessage id ∧ why ≠ .waitingForSpace id)) :
    (c.forget t id).Attended pending away about' debt := by
  have role : ∀ u why, c.Role about' u why ↔ c.Role about u why ∧
      (u = t → why ≠ .waitingForMessage id ∧ why ≠ .waitingForSpace id) := by
    intro u why
    unfold Role
    rw [mine, or_and_right]
    refine or_congr (and_iff_left_of_imp fun waits => ?_).symm Iff.rfl
    rintro rfl
    exact absurd waits (h.not_waits gone)
  have other : ∀ id', id' ≠ id →
      (∀ u, c.Role about' u (.waitingForMessage id') ↔ c.Role about u (.waitingForMessage id')) ∧
      (∀ u, c.Role about' u (.waitingForSpace id') ↔ c.Role about u (.waitingForSpace id')) := by
    refine fun id' ne => ⟨fun u => ?_, fun u => ?_⟩
    · exact (role u _).trans (and_iff_left fun _ => ⟨fun same => ne (by cases same; rfl), nofun⟩)
    · exact (role u _).trans (and_iff_left fun _ => ⟨nofun, fun same => ne (by cases same; rfl)⟩)
  have leaving : ∀ u why, about' = some (u, why) → away u :=
    fun u why leaves => h.leaving u why ((mine u why).1 leaves).1
  unfold Commons.forget
  cases here : c.box? id with
  | none =>
    -- no task plays a part at a mailbox that does not exist
    refine ⟨h.orderly, h.accepts, h.quiet, fun id' m₀ there => ?_, fun u id' plays => ?_, h.retries,
      leaving⟩
    · have ne : id' ≠ id := by
        rintro rfl
        rw [here] at there
        cases there
      exact (h.tended id' m₀ there).congr (other id' ne).1 (other id' ne).2 (Nat.le_refl _)
    · exact h.known u id' (plays.imp (fun plays => ((role _ _).1 plays).1) fun plays =>
        ((role _ _).1 plays).1)
  | some m =>
    refine h.changeBox here rfl rfl (keeps_setBox c id _ h.orderly).1 h.accepts ?_
      (fun id' ne => ⟨(other id' ne).1, (other id' ne).2, Nat.le_refl _⟩) (fun _ _ waits => waits)
      leaving
    refine (h.tended id m here).removeListener (fun u => ?_) fun u => ?_
    · refine (role u _).trans (and_congr_right fun _ => ⟨fun kept same => ?_, fun ne same => ?_⟩)
      · exact (kept same).1 rfl
      · exact absurd same ne
    · refine (role u _).trans (and_congr_right fun _ => ⟨fun kept same => ?_, fun ne same => ?_⟩)
      · exact (kept same).2 rfl
      · exact absurd same ne

/-- A task that is driven leaves some mailboxes, and then it is not about to wait on any of
them. -/
theorem forgets {boxes : List MailboxId} (h : c.Attended pending away about debt) (gone : away t)
    (mine : ∀ u why, about = some (u, why) → u = t ∧
      ∃ id ∈ boxes, why = .waitingForMessage id ∨ why = .waitingForSpace id) :
    (boxes.foldl (fun c id => c.forget t id) c).Attended pending away none debt := by
  induction boxes generalizing c about with
  | nil =>
    cases about with
    | none => exact h
    | some part =>
      obtain ⟨-, id, none, -⟩ := mine part.1 part.2 rfl
      cases none
  | cons id boxes ih =>
    by_cases here : ∃ why, about = some (t, why) ∧
        (why = .waitingForMessage id ∨ why = .waitingForSpace id)
    · obtain ⟨why, leaves, part⟩ := here
      have left : (c.forget t id).Attended pending away none debt := by
        refine h.forget gone fun u why' => ?_
        rw [leaves]
        refine iff_of_false nofun ?_
        rintro ⟨⟨⟩, other⟩
        exact part.elim (other rfl).1 (other rfl).2
      exact ih left nofun
    · have left : (c.forget t id).Attended pending away about debt := by
        refine h.forget gone fun u why => (and_iff_left_of_imp fun leaves => ?_).symm
        rintro rfl
        exact ⟨fun same => here ⟨why, leaves, Or.inl same⟩,
          fun same => here ⟨why, leaves, Or.inr same⟩⟩
      refine ih left fun u why leaves => ?_
      obtain ⟨rfl, id', listed, part⟩ := mine u why leaves
      rcases List.mem_cons.1 listed with rfl | listed
      · exact absurd ⟨why, leaves, part⟩ here
      · exact ⟨rfl, id', listed, part⟩

/-- A task that is driven leaves all mailboxes that its fiber listens to. -/
theorem stopListening (h : c.Attended pending away about debt) {f : Fiber} (gone : away t)
    (task : f.task = some t)
    (mine : ∀ u why, about = some (u, why) → u = t ∧
      ∃ id ∈ f.listening, why = .waitingForMessage id ∨ why = .waitingForSpace id) :
    (c.stopListening f).1.Attended pending away none debt := by
  unfold Commons.stopListening
  rw [task]
  exact h.forgets gone mine

end Attended

end Resumable.Commons
