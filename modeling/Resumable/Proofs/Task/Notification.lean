import Mathlib.Data.List.Count
import Resumable.Proofs.Task.Shift

/-!
# Every end is told, once

`Shift.informs` says what becomes of the requests for exit messages, in any shift and at any
time.  There are two groups of invariants behind it.

`Shift.Accounted` keeps count: a request is registered with a task that goes on, or its message
is on its way, or was put.  A task that ends turns its registrations into messages that are due
(`Accounted.finish`), and a request that comes later makes its message itself
(`Accounted.late`).

`Shift.Stocked` looks at the exit mailboxes: what arrived while there was room is what they
hold and what was taken out of them, in order.  `Commons.Moves` says what an operation moves.
-/

namespace Resumable

/-! ## Exit mailboxes -/

namespace Commons

variable {c c' : Commons} {message : ExitMessage} {e : ExitBoxId}
  {put taken : ExitBoxId → List ExitMessage}

/-- The messages in an exit mailbox, the oldest first. -/
def exitItems (c : Commons) (e : ExitBoxId) : List ExitMessage :=
  ((c.exitBoxes[e.index]?).map (·.ring.items)).getD []

/-- What becomes of exit mailboxes while messages are put and taken. -/
structure Moves (c : Commons) (put taken : ExitBoxId → List ExitMessage) (c' : Commons) :
    Prop where
  content : ∀ e, c.exitItems e ++ put e = taken e ++ c'.exitItems e
  sized : ∀ m ∈ c'.exitBoxes, m.ring.Sized
  length : c.exitBoxes.length ≤ c'.exitBoxes.length

theorem exitItems_congr (same : c'.exitBoxes = c.exitBoxes) : c'.exitItems e = c.exitItems e := by
  unfold exitItems
  rw [same]

theorem exitItems_set {m m' : Mailbox ExitMessage} (here : c.exitBoxes[e.index]? = some m)
    (same : c'.exitBoxes = c.exitBoxes.set e.index m') (e' : ExitBoxId) :
    c'.exitItems e' = if e' = e then m'.ring.items else c.exitItems e' := by
  obtain ⟨lt, -⟩ := List.getElem?_eq_some_iff.1 here
  unfold exitItems
  rw [same]
  split
  · rename_i same
    rw [same, List.getElem?_set_self lt]
    rfl
  · rename_i ne
    rw [List.getElem?_set_ne]
    intro index
    cases e
    cases e'
    exact ne (congrArg ExitBoxId.mk index.symm)

theorem moves_same (sized : ∀ m ∈ c.exitBoxes, m.ring.Sized)
    (same : c'.exitBoxes = c.exitBoxes) : c.Moves (fun _ => []) (fun _ => []) c' where
  content e := by
    rw [exitItems_congr same]
    exact List.append_nil _
  sized := by
    rw [same]
    exact sized
  length := Nat.le_of_eq (by rw [same])

/-- One exit mailbox changes. -/
theorem moves_set {m m' : Mailbox ExitMessage} (sized : ∀ m ∈ c.exitBoxes, m.ring.Sized)
    (here : c.exitBoxes[e.index]? = some m) (same : c'.exitBoxes = c.exitBoxes.set e.index m')
    (sized' : m'.ring.Sized) {accepted given : List ExitMessage}
    (content : m.ring.items ++ accepted = given ++ m'.ring.items) :
    c.Moves (fun e' => if e' = e then accepted else [])
      (fun e' => if e' = e then given else []) c' where
  content e' := by
    rw [exitItems_set here same]
    split
    · rename_i mine
      have items : c.exitItems e = m.ring.items := by
        unfold exitItems
        rw [here]
        rfl
      rw [mine, items, content]
    · exact List.append_nil _
  sized m₀ member := by
    rw [same] at member
    rcases List.mem_or_eq_of_mem_set member with member | rfl
    · exact sized m₀ member
    · exact sized'
  length := Nat.le_of_eq (by rw [same, List.length_set])

/-- A message arrives if there is room for it. -/
theorem moves_notifyExit (sized : ∀ m ∈ c.exitBoxes, m.ring.Sized) (message : ExitMessage)
    (e : ExitBoxId) :
    c.Moves (fun e' => if e' = e then if c.hasExitSpace e then [message] else [] else [])
      (fun e' => if e' = e then [] else []) (c.notifyExit message e) := by
  unfold notifyExit
  cases here : c.exitBoxes[e.index]? with
  | none =>
    have room : c.hasExitSpace e = false := by
      unfold hasExitSpace
      rw [here]
      rfl
    simp only [room, Bool.false_eq_true, if_false, ite_self]
    exact moves_same sized rfl
  | some m =>
    have fits := sized m (List.mem_of_getElem? here)
    have room : c.hasExitSpace e = m.hasSpace := by
      unfold hasExitSpace
      rw [here]
      rfl
    rw [Option.bind_some]
    cases give : m.give? message with
    | none =>
      have full := (Mailbox.give?_eq_none_iff fits).1 give
      have none : m.hasSpace = false := by
        refine Bool.eq_false_iff.2 fun space => ?_
        have less := Ring.hasSpace_iff.1 space
        omega
      simp only [room, none, Bool.false_eq_true, if_false, ite_self]
      exact moves_same sized rfl
    | some given =>
      obtain ⟨woken, m'⟩ := given
      obtain ⟨-, -, items, -, -, sized'⟩ := Mailbox.give?_eq_some fits give
      have space : m.hasSpace = true := by
        by_contra none
        have full := Ring.full_of_hasSpace fits (Bool.eq_false_iff.2 none)
        rw [(Mailbox.give?_eq_none_iff fits).2 full] at give
        cases give
      simp only [room, space, if_true]
      exact moves_set sized here (spares_wake _ _).exits sized' items.symm

/-- The oldest message is taken. -/
theorem moves_takeExit? (sized : ∀ m ∈ c.exitBoxes, m.ring.Sized)
    (take : c.takeExit? e = some (message, c')) :
    c.Moves (fun e' => if e' = e then [] else []) (fun e' => if e' = e then [message] else [])
      c' := by
  unfold takeExit? at take
  split at take
  · rename_i a woken m' taken
    obtain ⟨m, here, take'⟩ := Option.bind_eq_some_iff.1 taken
    obtain ⟨rest, items, -, rfl, sized'⟩ :=
      Mailbox.take?_eq_some (sized m (List.mem_of_getElem? here)) take'
    cases take
    refine moves_set sized here (spares_wake _ _).exits sized' ?_
    rw [items]
    exact List.append_nil _
  · cases take

/-- Others move no message, unless they say so. -/
theorem moves_foreign (sized : ∀ m ∈ c.exitBoxes, m.ring.Sized) (change : c.Foreign c') :
    c.Moves (fun _ => []) (fun _ => []) c' := by
  cases change with
  | spawn => exact moves_same sized rfl
  | start t => exact moves_same sized (spares_start c t).exits
  | ask op detached => exact moves_same sized (spares_perform op c _).exits
  | tryPut box v => exact moves_same sized (spares_tryPut c box v).exits
  | advance time => exact moves_same sized (spares_advance c time).exits
  | refuse refusing => exact moves_same sized rfl
  | makeBox made => exact moves_same sized rfl
  | @makeExitBox m made =>
    obtain ⟨fits, items, -, -⟩ := made.empty
    refine ⟨fun e => ?_, fun m₀ member => ?_, ?_⟩
    · refine (List.append_nil _).trans ?_
      unfold exitItems addExitBox
      rw [List.getElem?_append]
      split
      · rfl
      · rename_i new
        rw [List.getElem?_eq_none (Nat.le_of_not_lt new)]
        cases last : [m][e.index - c.exitBoxes.length]? with
        | none => rfl
        | some m' =>
          rw [List.mem_singleton.1 (List.mem_of_getElem? last), Option.map_some, items]
          rfl
    · rcases List.mem_append.1 member with member | member
      · exact sized m₀ member
      · rw [List.mem_singleton.1 member]
        exact fits
    · exact List.length_append ▸ Nat.le_add_right _ _
  | @attend e m here consumer producers =>
    let m' : Mailbox ExitMessage := { m with consumer, producers }
    have content : m.ring.items ++ [] = [] ++ m'.ring.items := List.append_nil _
    let c' : Commons := { c with exitBoxes := c.exitBoxes.set e.index m' }
    have same : c'.exitBoxes = c.exitBoxes.set e.index m' := rfl
    have moves := moves_set sized here same (sized m (List.mem_of_getElem? here)) content
    simp only [ite_self] at moves
    exact moves

end Commons

namespace Shift

variable {k k' : Shift} {t : TaskId}

/-! ## What exit mailboxes hold -/

/-- The messages that arrived at an exit mailbox while there was room, in order. -/
def arrivedAt (k : Shift) (e : ExitBoxId) : List ExitMessage :=
  (k.arrivals.filter fun a => a.room && a.notice.box = e).map (·.notice.message)

/-- The messages that were taken out of an exit mailbox, in order. -/
def takenFrom (k : Shift) (e : ExitBoxId) : List ExitMessage :=
  (k.taken.filter (·.box = e)).map (·.message)

/-- Exit mailboxes hold what arrived and was not taken, and requests are for mailboxes that
exist. -/
structure Stocked (k : Shift) : Prop where
  sized : ∀ m ∈ k.commons.exitBoxes, m.ring.Sized
  content : ∀ e, k.takenFrom e ++ k.commons.exitItems e = k.arrivedAt e
  asked : ∀ q ∈ k.asked, q.2.index < k.commons.exitBoxes.length

theorem stocked_initial : initial.Stocked where
  sized m member := by cases member
  content e := rfl
  asked q member := by cases member

theorem Stocked.move {put taken : ExitBoxId → List ExitMessage} (h : k.Stocked)
    (moves : k.commons.Moves put taken k'.commons)
    (arrived : ∀ e, k'.arrivedAt e = k.arrivedAt e ++ put e)
    (took : ∀ e, k'.takenFrom e = k.takenFrom e ++ taken e)
    (asked : ∀ q ∈ k'.asked, q ∈ k.asked ∨ q.2.index < k.commons.exitBoxes.length) :
    k'.Stocked where
  sized := moves.sized
  content e := by
    rw [arrived, took, List.append_assoc, ← moves.content, ← List.append_assoc, h.content]
  asked q member := by
    refine Nat.lt_of_lt_of_le ?_ moves.length
    exact (asked q member).elim (h.asked q) id

/-- Exit mailboxes are left alone. -/
theorem Stocked.same (h : k.Stocked) (exits : k'.commons.exitBoxes = k.commons.exitBoxes)
    (arrivals : k'.arrivals = k.arrivals) (taken : k'.taken = k.taken)
    (asked : ∀ q ∈ k'.asked, q ∈ k.asked ∨ q.2.index < k.commons.exitBoxes.length) :
    k'.Stocked := by
  refine h.move (Commons.moves_same h.sized exits) (fun e => ?_) (fun e => ?_) asked
  · unfold arrivedAt
    rw [arrivals]
    exact (List.append_nil _).symm
  · unfold takenFrom
    rw [taken]
    exact (List.append_nil _).symm

theorem Stocked.put (h : k.Stocked) (n : Notice) (stray : Bool) : (k.put n stray).Stocked := by
  refine h.move (Commons.moves_notifyExit h.sized n.message n.box) (fun e => ?_) (fun e => ?_)
    fun _ => Or.inl
  · unfold arrivedAt Shift.put
    rw [List.filter_append, List.map_append]
    congr 1
    by_cases same : e = n.box
    · rw [same]
      cases k.commons.hasExitSpace n.box <;> simp
    · simp [same, Ne.symm same]
  · rw [ite_self]
    exact (List.append_nil _).symm

/-- Somebody asks for a message in a mailbox that exists. -/
theorem Stocked.ask (h : k.Stocked) (exits : k'.commons.exitBoxes = k.commons.exitBoxes)
    (arrivals : k'.arrivals = k.arrivals) (taken : k'.taken = k.taken) {e : ExitBoxId}
    (asked : k'.asked = k.asked ++ [(t, e)]) (box : e.index < k.commons.exitBoxes.length) :
    k'.Stocked := by
  refine h.same exits arrivals taken fun q member => ?_
  rw [asked] at member
  rcases List.mem_append.1 member with member | member
  · exact Or.inl member
  · rw [List.mem_singleton.1 member]
    exact Or.inr box

theorem Stocked.next (h : k.Stocked) (step : Next k k') : k'.Stocked := by
  cases step with
  | outside change =>
    refine h.move (Commons.moves_foreign h.sized change) (fun e => ?_) (fun e => ?_) fun _ => Or.inl
    · exact (List.append_nil _).symm
    · exact (List.append_nil _).symm
  | begin next =>
    exact h.same (Commons.spares_stopListening _ _).exits rfl rfl fun _ => Or.inl
  | request driven op => exact h.same (Commons.spares_perform _ _ _).exits rfl rfl fun _ => Or.inl
  | pause driven here why reason => exact h.same rfl rfl rfl fun _ => Or.inl
  | finish driven here result reason =>
    exact h.same (Commons.spares_stopListening _ _).exits rfl rfl fun _ => Or.inl
  | fall driven => exact h.same (Commons.spares_stopListening _ _).exits rfl rfl fun _ => Or.inl
  | register here unended box => exact h.ask rfl rfl rfl rfl box
  | late here given box => exact h.ask rfl rfl rfl rfl box
  | @deliver n before after parts =>
    obtain ⟨sized, content, asked⟩ := h.put n false
    exact ⟨sized, content, asked⟩
  | stray n => exact h.put n true
  | @takeExit message e c take =>
    refine h.move (Commons.moves_takeExit? h.sized take) (fun e' => ?_) (fun e' => ?_)
      fun _ => Or.inl
    · rw [ite_self]
      exact (List.append_nil _).symm
    · unfold takenFrom
      rw [List.filter_append, List.map_append]
      congr 1
      by_cases same : e' = e
      · simp [same]
      · simp [same, Ne.symm same]

/-! ## What becomes of requests -/

theorem count_requests (boxes : List ExitBoxId) (u : TaskId) (e : ExitBoxId) :
    (boxes.map (Prod.mk t)).count (u, e) = if u = t then boxes.count e else 0 := by
  split
  · rename_i same
    rw [same]
    exact List.count_map_of_injective boxes _ (fun _ _ same => congrArg Prod.snd same) e
  · rename_i ne
    refine List.count_eq_zero.2 fun member => ?_
    obtain ⟨e', -, same⟩ := List.mem_map.1 member
    exact ne (congrArg Prod.fst same).symm

theorem requests_notices (result : TaskResult) (boxes : List ExitBoxId) :
    (notices t result boxes).map Notice.request = boxes.map (Prod.mk t) := by
  unfold notices
  rw [List.map_map]
  rfl

/-- Every request is registered, or its message is on its way, or was put. -/
structure Accounted (k : Shift) : Prop where
  balance : ∀ t e, k.asked.count (t, e) = (k.commons.informed t).count e +
    (k.due.map Notice.request).count (t, e) + (k.puts.map Notice.request).count (t, e)
  truthful : ∀ n ∈ k.due ++ k.puts, k.commons.result? n.message.task = some n.message.result
  settled : ∀ t, k.commons.result? t ≠ none → k.commons.informed t = []

theorem accounted_initial : initial.Accounted where
  balance t e := by
    have none : initial.commons.informed t = [] := by
      unfold Commons.informed Commons.task?
      split <;> rfl
    rw [none]
    rfl
  truthful n member := by cases member
  settled t _ := by
    unfold Commons.informed Commons.task?
    split <;> rfl

namespace Accounted

theorem same (h : k.Accounted) (ends : k.commons.SameEnds k'.commons)
    (asked : k'.asked = k.asked) (due : k'.due = k.due) (puts : k'.puts = k.puts) :
    k'.Accounted where
  balance t e := by
    rw [asked, due, puts, ends.informed]
    exact h.balance t e
  truthful n member := by
    rw [due, puts] at member
    rw [ends.result]
    exact h.truthful n member
  settled t given := by
    rw [ends.result] at given
    rw [ends.informed]
    exact h.settled t given

/-- A task that ends owes a message to everyone who is registered. -/
theorem finish (h : k.Accounted) {c : Commons} (ends : k.commons.SameEnds c) {r : TaskRecord}
    (here : c.task? t = some r) (unended : k.commons.result? t = none) {result : TaskResult}
    (commons : k'.commons = c.setTask t (r.ended result)) (asked : k'.asked = k.asked)
    (due : k'.due = k.due ++ notices t result r.informed) (puts : k'.puts = k.puts) :
    k'.Accounted := by
  have registered : k.commons.informed t = r.informed := by
    rw [← ends.informed, Commons.informed, here]
    rfl
  have informed : ∀ u, k'.commons.informed u = if u = t then [] else k.commons.informed u := by
    intro u
    rw [commons, Commons.informed_setTask here, ends.informed]
    rfl
  have results (u : TaskId) :
      k'.commons.result? u = if u = t then some result else k.commons.result? u := by
    rw [commons, Commons.result?_setTask here, ends.result]
    rfl
  refine ⟨fun u e => ?_, fun n member => ?_, fun u given => ?_⟩
  · rw [asked, due, puts, informed, List.map_append, List.count_append, requests_notices,
      count_requests, h.balance u e]
    split
    · rename_i same
      rw [same, registered, List.count_nil]
      omega
    · omega
  · rw [results]
    rw [due, puts, List.append_assoc] at member
    have old : n ∈ k.due ++ k.puts → (if n.message.task = t then some result
        else k.commons.result? n.message.task) = some n.message.result := by
      intro member
      have given := h.truthful n member
      rw [if_neg, given]
      intro same
      rw [same, unended] at given
      cases given
    rcases List.mem_append.1 member with member | member
    · exact old (List.mem_append_left _ member)
    · rcases List.mem_append.1 member with member | member
      · obtain ⟨e, -, rfl⟩ := List.mem_map.1 member
        exact if_pos rfl
      · exact old (List.mem_append_right _ member)
  · rw [informed]
    split
    · rfl
    · rename_i ne
      rw [results, if_neg ne] at given
      exact h.settled u given

/-- Somebody registers with a task that goes on. -/
theorem register (h : k.Accounted) {r : TaskRecord} {e : ExitBoxId}
    (here : k.commons.task? t = some r) (unended : r.result = none)
    (commons : k'.commons = k.commons.setTask t { r with informed := r.informed ++ [e] })
    (asked : k'.asked = k.asked ++ [(t, e)]) (due : k'.due = k.due) (puts : k'.puts = k.puts) :
    k'.Accounted := by
  have registered : k.commons.informed t = r.informed := by
    rw [Commons.informed, here]
    rfl
  have results : ∀ u, k'.commons.result? u = k.commons.result? u := by
    intro u
    rw [commons, Commons.result?_setTask here]
    split
    · rename_i same
      rw [same, Commons.result?, here]
      rfl
    · rfl
  refine ⟨fun u e' => ?_, fun n member => ?_, fun u given => ?_⟩
  · have before := h.balance u e'
    have one : [(t, e)].count (u, e') = if u = t then [e].count e' else 0 := count_requests [e] u e'
    rw [asked, due, puts, commons, Commons.informed_setTask here, List.count_append, one]
    split
    · rename_i same
      rw [same, registered] at before
      rw [same, List.count_append]
      omega
    · exact before
  · rw [results]
    rw [due, puts] at member
    exact h.truthful n member
  · rw [results] at given
    rw [commons, Commons.informed_setTask here, if_neg]
    · exact h.settled u given
    · rintro rfl
      rw [Commons.result?, here] at given
      exact given unended

/-- Somebody asks too late to register, and the message is on its way at once. -/
theorem late (h : k.Accounted) {r : TaskRecord} {e : ExitBoxId} {result : TaskResult}
    (here : k.commons.task? t = some r) (given : r.result = some result)
    (commons : k'.commons = k.commons) (asked : k'.asked = k.asked ++ [(t, e)])
    (due : k'.due = k.due ++ notices t result [e]) (puts : k'.puts = k.puts) :
    k'.Accounted := by
  refine ⟨fun u e' => ?_, fun n member => ?_, ?_⟩
  · have before := h.balance u e'
    rw [asked, due, puts, commons, List.map_append, List.count_append, List.count_append]
    have one : (notices t result [e]).map Notice.request = [(t, e)] := rfl
    rw [one]
    omega
  · rw [due, puts, List.append_assoc] at member
    rw [commons]
    rcases List.mem_append.1 member with member | member
    · exact h.truthful n (List.mem_append_left _ member)
    · rcases List.mem_append.1 member with member | member
      · rw [List.mem_singleton.1 member, Commons.result?, here]
        exact given
      · exact h.truthful n (List.mem_append_right _ member)
  · rw [commons]
    exact h.settled

/-- A message that was on its way is put. -/
theorem deliver (h : k.Accounted) {n : Notice} {before after : List Notice}
    (parts : k.due = before ++ n :: after) (ends : k.commons.SameEnds k'.commons)
    (asked : k'.asked = k.asked) (due : k'.due = before ++ after)
    (puts : k'.puts = k.puts ++ [n]) : k'.Accounted := by
  refine ⟨fun t e => ?_, fun n' member => ?_, fun t given => ?_⟩
  · have balance := h.balance t e
    rw [parts] at balance
    rw [asked, due, puts, ends.informed]
    simp only [List.map_append, List.map_cons, List.map_nil, List.count_append, List.count_cons,
      List.count_nil] at balance ⊢
    omega
  · rw [ends.result]
    refine h.truthful n' ?_
    rw [due, puts] at member
    rw [parts]
    simp only [List.mem_append, List.mem_cons, List.not_mem_nil, or_false] at member ⊢
    tauto
  · rw [ends.result] at given
    rw [ends.informed]
    exact h.settled t given

end Accounted

/-- Every step keeps count. -/
theorem Accounted.next (h : k.Accounted) (sound : k.Sound) (step : Next k k') :
    k'.Accounted := by
  cases step with
  | outside change => exact h.same change.sameEnds rfl rfl rfl
  | @begin t queue next =>
    obtain ⟨⟨result, informed⟩, -⟩ :=
      Commons.spares_stopListening { k.commons with queue } (k.fibers t)
    exact h.same ⟨result, informed⟩ rfl rfl rfl
  | request driven op => exact h.same (Commons.spares_perform _ _ _).toSameEnds rfl rfl rfl
  | pause driven here why reason =>
    exact h.same (Commons.spares_paused here why).toSameEnds rfl rfl rfl
  | @finish t r driven here result reason =>
    refine h.finish (Commons.spares_stopListening _ _).toSameEnds here ?_ rfl rfl rfl rfl
    obtain ⟨r', there, done, started, flags⟩ := sound.orderly.running (away_of_driven driven)
    unfold Commons.result?
    rw [there]
    exact (flags.live started done).2
  | fall driven => exact h.same (Commons.spares_stopListening _ _).toSameEnds rfl rfl rfl
  | register here unended box => exact h.register here unended rfl rfl rfl rfl
  | late here given box => exact h.late here given rfl rfl rfl rfl
  | deliver parts =>
    exact h.deliver parts (Commons.sameEnds_notifyExit _ _ _) rfl rfl (puts_put _)
  | stray n => exact h.same (Commons.sameEnds_notifyExit _ _ _) rfl rfl (puts_stray n)
  | takeExit take => exact h.same (Commons.sameEnds_takeExit? take) rfl rfl rfl

theorem accounted (run : Reaches initial k) : k.Sound ∧ k.Accounted ∧ k.Stocked := by
  induction run with
  | refl => exact ⟨sound_initial, accounted_initial, stocked_initial⟩
  | tail _ step ih =>
    obtain ⟨sound, accounts, stock⟩ := ih
    exact ⟨(sound.next step).1, accounts.next sound step, stock.next step⟩

/-! ## What becomes of every request -/

/-- What holds of requests for exit messages at any time. -/
structure Informs (k : Shift) : Prop where
  /-- Nobody is told of an end before the task is done. -/
  early : ∀ t, k.commons.status? t ≠ some .done → ∀ n ∈ k.puts ++ k.due, n.message.task ≠ t
  /-- After that there is one message for every request, and it is put or on its way. -/
  once : ∀ t e, k.commons.status? t = some .done →
    (k.puts.map Notice.request).count (t, e) + (k.due.map Notice.request).count (t, e) =
      k.asked.count (t, e)
  /-- A message tells how its task ended, once and for all. -/
  result : ∀ n ∈ k.puts ++ k.due, ∀ k', Reaches k k' →
    ∃ r, k'.commons.task? n.message.task = some r ∧ r.result = some n.message.result
  /-- What is on its way gets there, whatever tasks do. -/
  delivered : ∃ k', Reaches k k' ∧ k.Delivered k'
  /-- It goes to the end of its mailbox, unless that is full. -/
  room : ∀ n ∈ k.due, ∃ m, k.commons.exitBoxes[n.box.index]? = some m ∧
    (k.put n false).commons.exitItems n.box =
      m.ring.items ++ if m.ring.items.length < m.ring.max then [n.message] else []
  /-- A mailbox gets what arrives while there is room, and nothing else. -/
  content : ∀ e, k.takenFrom e ++ k.commons.exitItems e = k.arrivedAt e

/-- A message on its way is for a mailbox that exists. -/
theorem Accounted.exists_box (h : k.Accounted) (stock : k.Stocked) {n : Notice}
    (member : n ∈ k.due) : ∃ m, k.commons.exitBoxes[n.box.index]? = some m := by
  have due : 0 < (k.due.map Notice.request).count n.request :=
    List.count_pos_iff.2 (List.mem_map_of_mem member)
  have balance : k.asked.count n.request = _ := h.balance n.message.task n.box
  have asked : n.request ∈ k.asked := by
    refine List.count_pos_iff.1 ?_
    rw [balance]
    exact Nat.lt_of_lt_of_le due (Nat.le_trans (Nat.le_add_left _ _) (Nat.le_add_right _ _))
  exact ⟨_, List.getElem?_eq_getElem (stock.asked _ asked)⟩

/-- However tasks end, and whenever somebody asks, every request gets one message. -/
theorem informs (run : Reaches initial k) : k.Informs := by
  obtain ⟨sound, accounts, stock⟩ := accounted run
  refine ⟨fun t going n member => ?_, fun t e done => ?_, fun n member k' later => ?_,
    exists_delivered k, fun n member => ?_, stock.content⟩
  · rintro rfl
    have given := accounts.truthful n (List.mem_append.2 (List.mem_append.1 member).symm)
    refine going (sound.orderly.done_iff.2 ?_)
    rw [given]
    exact nofun
  · have balance := accounts.balance t e
    rw [accounts.settled t (sound.orderly.done_iff.1 done), List.count_nil] at balance
    omega
  · have given := accounts.truthful n (List.mem_append.2 (List.mem_append.1 member).symm)
    obtain ⟨r, here, result⟩ := Option.bind_eq_some_iff.1 given
    obtain ⟨r', there, becomes⟩ := (sound.reaches later).2 n.message.task r here
    exact ⟨r', there, becomes.result _ result⟩
  · obtain ⟨m, here⟩ := accounts.exists_box stock member
    refine ⟨m, here, ?_⟩
    have content := (Commons.moves_notifyExit stock.sized n.message n.box).content n.box
    have items : k.commons.exitItems n.box = m.ring.items := by
      unfold Commons.exitItems
      rw [here]
      rfl
    have room : k.commons.hasExitSpace n.box = m.ring.hasSpace := by
      unfold Commons.hasExitSpace
      rw [here]
      rfl
    rw [if_pos rfl, if_pos rfl, List.nil_append, items, room] at content
    refine content.symm.trans (congrArg (m.ring.items ++ ·) ?_)
    simp only [Ring.hasSpace_iff]

/-- A mailbox for two messages is registered twice with a task, which ends.  A third message
is lost because nobody took the others. -/
theorem informs_thrice : ∃ k, Reaches initial k ∧ k.Informs ∧
    k.asked = [(⟨1⟩, ⟨0⟩), (⟨1⟩, ⟨0⟩), (⟨1⟩, ⟨0⟩)] ∧ k.due = [] ∧
    k.puts.map Notice.request = k.asked ∧
    k.commons.exitItems ⟨0⟩ = [⟨⟨1⟩, .ok .unit⟩, ⟨⟨1⟩, .ok .unit⟩] := by
  have box : Reaches initial _ :=
    .single (.outside (.makeExitBox (.bounded (show 2 ≤ Ring.largest by decide))))
  have made := box.tail (.outside .spawn)
  have once := made.tail (.register (t := ⟨1⟩) (e := ⟨0⟩) rfl rfl (by decide))
  have started := once.tail (.outside (.start ⟨1⟩))
  have begun := started.tail (.begin rfl)
  have twice := begun.tail (.register (t := ⟨1⟩) (e := ⟨0⟩) rfl rfl (by decide))
  have ended := twice.tail (.finish (t := ⟨1⟩) rfl rfl (.ok .unit) none)
  have first := ended.tail (.deliver (show _ = [] ++ _ :: _ from rfl))
  have third := first.tail (.late (t := ⟨1⟩) (e := ⟨0⟩) rfl rfl (by decide))
  have second := third.tail (.deliver (show _ = [] ++ _ :: _ from rfl))
  have lost := second.tail (.deliver (show _ = [] ++ _ :: _ from rfl))
  exact ⟨_, lost, informs lost, rfl, rfl, rfl, rfl⟩

end Shift

end Resumable
