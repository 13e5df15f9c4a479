import Resumable.Proofs.Task.Commons
import Resumable.Machine.Primitive

/-!
# A mailbox is a bounded queue

`Traffic` is everything that can happen to a mailbox, with the messages that it accepts and
those that are taken out of it: tasks and outsiders put and get messages, tasks begin and
cease to wait, and elsewhere anything goes on.

`Traffic.fifo` says that nothing is lost, doubled or reordered, and that every operation
answers by the content of the buffer alone (`Commons.Answers`).
-/

namespace Resumable

/-! ## Messages in and out of a buffer -/

/-- What becomes of a buffer while messages are accepted and taken. -/
structure Ring.Carries {α : Type} (r : Ring α) (accepted taken : List α) (r' : Ring α) : Prop where
  content : r.items ++ accepted = taken ++ r'.items
  max : r'.max = r.max
  capacity : r.capacity ≤ r'.capacity
  sized : r'.Sized

namespace Ring

variable {α : Type} {r r' r'' : Ring α} {accepted accepted' taken taken' : List α}

theorem Sized.carries (h : r.Sized) : r.Carries [] [] r :=
  ⟨List.append_nil _, rfl, Nat.le_refl _, h⟩

theorem Carries.trans (h : r.Carries accepted taken r') (h' : r'.Carries accepted' taken' r'') :
    r.Carries (accepted ++ accepted') (taken ++ taken') r'' where
  content := by
    rw [← List.append_assoc, h.content, List.append_assoc, h'.content, List.append_assoc]
  max := h'.max.trans h.max
  capacity := Nat.le_trans h.capacity h'.capacity
  sized := h'.sized

end Ring

/-! ## Requests -/

namespace Op

/-- A message, if the answer is that it was accepted. -/
def ifAccepted (answer : Bool) (v : Value) : List Value := if answer then [v] else []

/-- The message that a mailbox has accepted when a request is answered. -/
def accepted (id : MailboxId) : (op : Op) → op.Reply → List Value
  | .putNb box v, r => if box = id then ifAccepted r v else []
  | .put box v, r => if box = id then ifAccepted r v else []
  | _, _ => []

/-- The message that was taken out of a mailbox when a request is answered. -/
def taken (id : MailboxId) : (op : Op) → op.Reply → List Value
  | .getNb box, r => if box = id then Option.toList r else []
  | .get box, r => if box = id then Option.toList r else []
  | _, _ => []

end Op

/-- What can happen to a mailbox, with the messages that it accepts and those that are taken
out of it, in order.  An outsider asks with a fiber that belongs to no task. -/
inductive Traffic (id : MailboxId) (c : Commons) : List Value → List Value → Commons → Prop
  | nil : Traffic id c [] [] c
  | ask {accepted taken : List Value} {c' c'' : Commons} {f f' : Fiber} {op : Op} {r : op.Reply}
      (before : Traffic id c accepted taken c') (answer : op.perform c' f = (.ok r, c'', f')) :
    Traffic id c (accepted ++ op.accepted id r) (taken ++ op.taken id r) c''
  /-- A request breaks the rules of the runtime. -/
  | violate {accepted taken : List Value} {c' c'' : Commons} {f f' : Fiber} {op : Op}
      {v : Commons.Violation} (before : Traffic id c accepted taken c')
      (answer : op.perform c' f = (.error v, c'', f')) : Traffic id c accepted taken c''
  | tryPut {accepted taken : List Value} {c' c'' : Commons} {box : MailboxId} {v : Value}
      {r : Except Value Unit} (before : Traffic id c accepted taken c')
      (answer : c'.tryPut box v = (r, c'')) :
    Traffic id c (accepted ++ if box = id then Op.ifAccepted r.toBool v else []) taken c''
  /-- A task ceases to wait. -/
  | leave {accepted taken : List Value} {c' : Commons} (before : Traffic id c accepted taken c')
      (t : TaskId) (box : MailboxId) : Traffic id c accepted taken (c'.forget t box)
  /-- Anything that leaves all mailboxes alone. -/
  | elsewhere {accepted taken : List Value} {c' c'' : Commons}
      (before : Traffic id c accepted taken c') (same : c''.boxes = c'.boxes) :
    Traffic id c accepted taken c''

namespace Commons

variable {c c' : Commons} {id box : MailboxId} {m m' : Mailbox Value} {v : Value} {f f' : Fiber}

/-- A mailbox in two states, with the messages that it accepted and gave in between. -/
def Conveys (id : MailboxId) (m : Mailbox Value) (accepted taken : List Value) (c : Commons) :
    Prop :=
  ∃ m', c.box? id = some m' ∧ m.ring.Carries accepted taken m'.ring

/-! ### Operations on another mailbox -/

theorem box?_tryPut_ne (ne : id ≠ box) : (c.tryPut box v).2.box? id = c.box? id := by
  unfold tryPut
  split
  · rw [box?_congr boxes_wake, box?_setBox_ne ne]
  · rfl

theorem box?_getNb_ne (ne : id ≠ box) : (c.getNb box).2.box? id = c.box? id := by
  unfold getNb
  split
  · rw [box?_congr boxes_wake, box?_setBox_ne ne]
  · rfl

theorem box?_get_ne (ne : id ≠ box) : (c.get f box).2.1.box? id = c.box? id := by
  unfold get
  repeat' split
  all_goals first
    | rfl
    | exact box?_setBox_ne ne
    | exact (box?_congr boxes_wake).trans (box?_setBox_ne ne)

theorem box?_put_ne (ne : id ≠ box) : (c.put f box v).2.1.box? id = c.box? id := by
  unfold put
  repeat' split
  all_goals first
    | rfl
    | exact box?_setBox_ne ne
    | exact (box?_congr boxes_wake).trans (box?_setBox_ne ne)

/-! ### Operations on the mailbox -/

/-- A message that is accepted stands at the end. -/
theorem carries_give? {woken : Option TaskId} (sized : m.ring.Sized)
    (give : m.give? v = some (woken, m')) : m.ring.Carries [v] [] m'.ring := by
  obtain ⟨-, -, items, max, capacity, sized'⟩ := Mailbox.give?_eq_some sized give
  exact ⟨by rw [items]; rfl, max, capacity, sized'⟩

/-- A message that is taken stood at the front. -/
theorem carries_rest {rest : List Value} (sized : m.ring.Sized) (items : m.ring.items = v :: rest) :
    m.ring.Carries [] [v] { m.ring with items := rest } := by
  have length := sized.length_le
  rw [items, List.length_cons] at length
  exact ⟨by rw [items]; simp, rfl, Nat.le_refl _, sized.pos, sized.capacity_le, by simp only; omega,
    sized.max_le⟩

section Here

variable (here : c.box? id = some m)

include here

/-- A mailbox that stands in the place of another one, and a task is woken. -/
theorem box?_setBox_wake {woken : Option TaskId} :
    ((c.setBox id m').wake woken).box? id = some m' := by
  rw [box?_congr boxes_wake, box?_setBox here, if_pos rfl]

variable (sized : m.ring.Sized)

include sized

theorem conveys_tryPut (v : Value) :
    Conveys id m (Op.ifAccepted (c.tryPut id v).1.toBool v) [] (c.tryPut id v).2 := by
  obtain ⟨m', -, give, same⟩ | ⟨-, same⟩ := tryPut_cases here sized v
  · rw [same]
    exact ⟨m', box?_setBox_wake here, carries_give? sized give⟩
  · rw [same]
    exact ⟨m, here, sized.carries⟩

theorem conveys_put (r : Bool) (answer : c.put f id v = (.ok r, c', f')) :
    Conveys id m (Op.ifAccepted r v) [] c' := by
  obtain ⟨m', m'', -, give, rfl, same⟩ | ⟨t, -, -, same⟩ | ⟨-, -, same⟩ := put_cases here sized f v
  · rw [same] at answer
    cases answer
    have carries : m.ring.Carries [v] [] m'.ring := carries_give? sized give
    exact ⟨_, box?_setBox_wake here, carries⟩
  · rw [same] at answer
    cases answer
    refine ⟨m.enqueue t, by rw [box?_setBox here, if_pos rfl], ?_⟩
    unfold Mailbox.enqueue
    split <;> exact sized.carries
  · rw [same] at answer
    cases answer

theorem conveys_getNb : Conveys id m [] (c.getNb id).1.toList (c.getNb id).2 := by
  obtain ⟨v, rest, items, same⟩ | ⟨-, same⟩ := getNb_cases here sized
  · rw [same]
    exact ⟨_, box?_setBox_wake here, carries_rest sized items⟩
  · rw [same]
    exact ⟨m, here, sized.carries⟩

theorem conveys_get (r : Option Value) (answer : c.get f id = (.ok r, c', f')) :
    Conveys id m [] r.toList c' := by
  obtain ⟨v, rest, m', items, ring, -, -, same⟩ | ⟨t, -, -, -, same⟩ | ⟨e, -, same⟩ :=
    get_cases here sized f
  · rw [same] at answer
    cases answer
    exact ⟨m', box?_setBox_wake here, by rw [ring]; exact carries_rest sized items⟩
  · rw [same] at answer
    cases answer
    exact ⟨m.await t, by rw [box?_setBox here, if_pos rfl], sized.carries⟩
  · rw [same] at answer
    cases answer

theorem conveys_same (same : c'.boxes = c.boxes) : Conveys id m [] [] c' :=
  ⟨m, (box?_congr same).trans here, sized.carries⟩

theorem conveys_forget (t : TaskId) (box : MailboxId) : Conveys id m [] [] (c.forget t box) := by
  unfold forget
  split
  · rename_i m' there
    by_cases same : id = box
    · subst same
      obtain rfl : m = m' := Option.some.inj (here.symm.trans there)
      refine ⟨m.removeListener t, by rw [box?_setBox here, if_pos rfl], ?_⟩
      unfold Mailbox.removeListener Mailbox.removeProducer Mailbox.removeConsumer
      split <;> exact sized.carries
    · exact ⟨m, (box?_setBox_ne same).trans here, sized.carries⟩
  · exact ⟨m, here, sized.carries⟩

/-- Whatever is asked for, and by whom, the mailbox conveys the messages that the answer says. -/
theorem conveys_perform {op : Op} {r : op.Reply} (answer : op.perform c f = (.ok r, c', f')) :
    Conveys id m (op.accepted id r) (op.taken id r) c' := by
  cases op with
  | putNb box v =>
    obtain rfl : (c.putNb box v).1 = r := Except.ok.inj (congrArg Prod.fst answer)
    obtain rfl : (c.putNb box v).2 = c' := congrArg (·.2.1) answer
    rw [putNb_eq]
    by_cases same : box = id
    · subst same
      simpa [Op.accepted, Op.taken] using conveys_tryPut here sized v
    · simp only [Op.accepted, Op.taken, if_neg same]
      exact ⟨m, (box?_tryPut_ne (Ne.symm same)).trans here, sized.carries⟩
  | getNb box =>
    obtain rfl : (c.getNb box).1 = r := Except.ok.inj (congrArg Prod.fst answer)
    obtain rfl : (c.getNb box).2 = c' := congrArg (·.2.1) answer
    by_cases same : box = id
    · subst same
      simpa [Op.accepted, Op.taken] using conveys_getNb here sized
    · simp only [Op.accepted, Op.taken, if_neg same]
      exact ⟨m, (box?_getNb_ne (Ne.symm same)).trans here, sized.carries⟩
  | put box v =>
    by_cases same : box = id
    · subst same
      simpa [Op.accepted, Op.taken] using conveys_put here sized r answer
    · have other := box?_put_ne (c := c) (f := f) (v := v) (Ne.symm same)
      change c.put f box v = _ at answer
      rw [answer] at other
      simp only [Op.accepted, Op.taken, if_neg same]
      exact ⟨m, other.trans here, sized.carries⟩
  | get box =>
    by_cases same : box = id
    · subst same
      simpa [Op.accepted, Op.taken] using conveys_get here sized r answer
    · have other := box?_get_ne (c := c) (f := f) (Ne.symm same)
      change c.get f box = _ at answer
      rw [answer] at other
      simp only [Op.accepted, Op.taken, if_neg same]
      exact ⟨m, other.trans here, sized.carries⟩
  | makeBox max =>
    cases answer
    refine ⟨m, ?_, sized.carries⟩
    obtain ⟨lt, -⟩ := List.getElem?_eq_some_iff.1 here
    exact (List.getElem?_append_left lt).trans here
  | start t =>
    cases answer
    exact conveys_same here sized boxes_startFrom
  | resume t =>
    cases answer
    exact conveys_same here sized boxes_resume
  | setFlag flag raised =>
    cases answer
    refine conveys_same here sized ?_
    unfold setFlag
    split
    · split <;> rfl
    · rfl
  | _ =>
    cases answer
    exact conveys_same here sized rfl

end Here

/-! ### How operations answer -/

/-- How operations on a mailbox answer when it is in a state. -/
structure Answers (c : Commons) (id : MailboxId) (m : Mailbox Value) : Prop where
  hasSpace : m.hasSpace = true ↔ m.ring.items.length < m.ring.max
  hasMessage : m.hasMessage = true ↔ m.ring.items ≠ []
  tryPut : ∀ v, (c.tryPut id v).1 = .ok () ↔ m.hasSpace = true
  putNb : ∀ v, (c.putNb id v).1 = true ↔ m.hasSpace = true
  put : ∀ f v, (c.put f id v).1 = .ok true ↔ m.hasSpace = true
  getNb : ∀ v, (c.getNb id).1 = some v ↔ m.ring.items.head? = some v
  get : ∀ f v, (c.get f id).1 = .ok (some v) ↔ m.ring.items.head? = some v
  /-- A message that is refused is handed back. -/
  tryPut_refused : m.hasSpace = false → ∀ v, c.tryPut id v = (.error v, c)
  putNb_refused : m.hasSpace = false → ∀ v, c.putNb id v = (false, c)
  /-- An outsider may not wait. -/
  put_violates : m.hasSpace = false → ∀ f v, f.task = none →
    c.put f id v = (.error .putOutsideTask, c, f)
  /-- A task that waits keeps its message for another attempt. -/
  put_retried : m.hasSpace = false → ∀ {σ : Type} (f : Fiber) (t : TaskId) (v : Value)
    (rest : List Value) (again : Bool) (body : σ), f.task = some t →
      ∃ c' f', (Primitive.put.perform (.mailbox id :: v :: rest) again).run ⟨c, f, body⟩ =
          (.finished (.ok .suspended), ⟨c', f', body⟩) ∧
        c'.box? id = some (m.enqueue t) ∧ (m.enqueue t).ring = m.ring ∧
        f'.reason = some (.waitingForSpace id) ∧
        f'.frames = f.frames ++ [⟨Primitive.put.procId, Primitive.retryState, [.mailbox id, v]⟩]

/-- A put by a fiber is refused exactly when the mailbox is full, and then it is only noted
that the task of the fiber waits. -/
theorem put_full (here : c.box? id = some m) (sized : m.ring.Sized)
    (full : m.ring.items.length = m.ring.max) (f : Fiber) (v : Value) :
    c.put f id v = match f.task with
      | none => (.error .putOutsideTask, c, f)
      | some t =>
        (.ok false, c.setBox id (m.enqueue t), (f.listen id).pause (.waitingForSpace id)) := by
  obtain ⟨m', m'', space, -⟩ | ⟨t, -, task, same⟩ | ⟨-, task, same⟩ := put_cases here sized f v
  · omega
  · rw [same, task]
  · rw [same, task]

/-- The operations that do not wait decide by the content of the buffer. -/
theorem tryPut_eq (here : c.box? id = some m) (sized : m.ring.Sized) (v : Value) :
    ((c.tryPut id v).1 = .ok () ↔ m.hasSpace = true) ∧
      (m.hasSpace = false → c.tryPut id v = (.error v, c)) := by
  have space : m.hasSpace = true ↔ m.ring.items.length < m.ring.max := Ring.hasSpace_iff
  obtain ⟨m', lt, -, same⟩ | ⟨full, same⟩ := tryPut_cases here sized v
  · have fits := space.2 lt
    rw [same]
    simp [fits]
  · have none : m.hasSpace = false := Bool.eq_false_iff.2 fun fits => by have := space.1 fits; omega
    rw [same]
    simp [none]

theorem put_ok_iff (here : c.box? id = some m) (sized : m.ring.Sized) (f : Fiber) (v : Value) :
    (c.put f id v).1 = .ok true ↔ m.hasSpace = true := by
  have space : m.hasSpace = true ↔ m.ring.items.length < m.ring.max := Ring.hasSpace_iff
  obtain ⟨m', m'', lt, -, -, same⟩ | ⟨t, full, -, same⟩ | ⟨full, -, same⟩ :=
    put_cases here sized f v
  · rw [same]
    exact iff_of_true rfl (space.2 lt)
  · rw [same]
    exact iff_of_false nofun fun fits => by have := space.1 fits; omega
  · rw [same]
    exact iff_of_false nofun fun fits => by have := space.1 fits; omega

theorem getNb_eq (here : c.box? id = some m) (sized : m.ring.Sized) :
    (c.getNb id).1 = m.ring.items.head? := by
  obtain ⟨v, rest, items, same⟩ | ⟨items, same⟩ := getNb_cases here sized
  · rw [same, items]
    rfl
  · rw [same, items]
    rfl

theorem get_ok_iff (here : c.box? id = some m) (sized : m.ring.Sized) (f : Fiber) (v : Value) :
    (c.get f id).1 = .ok (some v) ↔ m.ring.items.head? = some v := by
  obtain ⟨v', rest, m', items, -, -, -, same⟩ | ⟨t, items, -, -, same⟩ | ⟨e, items, same⟩ :=
    get_cases here sized f
  · rw [same, items]
    simp
  · rw [same, items]
    simp
  · rw [same, items]
    simp

/-- In every state of a mailbox its buffer decides about every operation. -/
theorem answers (here : c.box? id = some m) (sized : m.ring.Sized) : c.Answers id m where
  hasSpace := Ring.hasSpace_iff
  hasMessage := by
    unfold Mailbox.hasMessage Ring.isEmpty
    cases m.ring.items <;> simp
  tryPut v := (tryPut_eq here sized v).1
  putNb v := by
    rw [putNb_eq, ← (tryPut_eq here sized v).1]
    cases (c.tryPut id v).1 <;> simp [Except.toBool]
  put := put_ok_iff here sized
  getNb v := by rw [getNb_eq here sized]
  get := get_ok_iff here sized
  tryPut_refused full v := (tryPut_eq here sized v).2 full
  putNb_refused full v := by
    rw [putNb_eq, (tryPut_eq here sized v).2 full]
    rfl
  put_violates full f v task := by
    rw [put_full here sized (Ring.full_of_hasSpace sized full), task]
  put_retried full σ f t v rest again body task := by
    have answer : Op.perform c f (.put id v) =
        (.ok false, c.setBox id (m.enqueue t), (f.listen id).pause (.waitingForSpace id)) := by
      refine (put_full here sized (Ring.full_of_hasSpace sized full) f v).trans ?_
      rw [task]
      rfl
    refine ⟨c.setBox id (m.enqueue t), ((f.listen id).pause (.waitingForSpace id)).unwind
      ⟨Primitive.put.procId, Primitive.retryState, [.mailbox id, v]⟩, ?_, ?_, ?_, rfl, ?_⟩
    · change Drive.run (.ask (.put id v) _) _ = _
      rw [Drive.run, answer]
      rfl
    · rw [box?_setBox here, if_pos rfl]
    · unfold Mailbox.enqueue
      split <;> rfl
    · unfold Fiber.listen
      split <;> rfl

end Commons

/-! ## Whatever happens -/

namespace Traffic

variable {id : MailboxId} {c c' : Commons} {m m₀ : Mailbox Value} {accepted taken : List Value}

/-- One thing after the other: the messages of a mailbox are those that it accepted and did
not give away. -/
theorem conveys (traffic : Traffic id c accepted taken c') (here : c.box? id = some m)
    (sized : m.ring.Sized) : c'.Conveys id m accepted taken := by
  induction traffic with
  | nil => exact ⟨m, here, sized.carries⟩
  | ask _ answer ih =>
    obtain ⟨m', there, before⟩ := ih
    obtain ⟨m'', found, after⟩ := Commons.conveys_perform there before.sized answer
    exact ⟨m'', found, before.trans after⟩
  | violate _ answer ih =>
    obtain ⟨rfl, -⟩ := Commons.perform_error answer
    exact ih
  | @tryPut accepted taken c' c'' box v r _ answer ih =>
    obtain ⟨m', there, before⟩ := ih
    obtain rfl : (c'.tryPut box v).1 = r := congrArg Prod.fst answer
    obtain rfl : (c'.tryPut box v).2 = c'' := congrArg Prod.snd answer
    by_cases same : box = id
    · subst same
      obtain ⟨m'', found, after⟩ := Commons.conveys_tryPut there before.sized v
      rw [if_pos rfl]
      exact ⟨m'', found, by simpa using before.trans after⟩
    · rw [if_neg same, List.append_nil]
      exact ⟨m', (Commons.box?_tryPut_ne (Ne.symm same)).trans there, before⟩
  | leave _ t box ih =>
    obtain ⟨m', there, before⟩ := ih
    obtain ⟨m'', found, after⟩ := Commons.conveys_forget there before.sized t box
    exact ⟨m'', found, by simpa using before.trans after⟩
  | elsewhere _ same ih =>
    obtain ⟨m', there, before⟩ := ih
    exact ⟨m', (Commons.box?_congr same).trans there, before⟩

/-- A mailbox loses and doubles nothing and keeps the order, whatever happens.  It never
holds more than it may, its slots never become fewer, and doubling them stays within 64
bits and makes room.  Every operation answers by the buffer alone. -/
theorem fifo (made : m₀.Made) (here : c.box? id = some m₀)
    (traffic : Traffic id c accepted taken c') :
    ∃ m, c'.box? id = some m ∧ accepted = taken ++ m.ring.items ∧ m.ring.max = m₀.ring.max ∧
      1 ≤ m.ring.capacity ∧ m.ring.capacity ≤ m.ring.max ∧ m.ring.max ≤ Ring.largest ∧
      m.ring.items.length ≤ m.ring.capacity ∧
      m.ring.grown = Nat.min (2 * m.ring.capacity) m.ring.max ∧
      m.ring.items.length ≤ m.ring.grown ∧ m.ring.grown ≤ Ring.largest ∧
      c'.Answers id m ∧
      ∀ {accepted' taken' : List Value} {c'' : Commons}, Traffic id c' accepted' taken' c'' →
        ∃ m', c''.box? id = some m' ∧ m.ring.capacity ≤ m'.ring.capacity := by
  obtain ⟨sized, empty, -, -⟩ := made.empty
  obtain ⟨m, there, carries⟩ := traffic.conveys here sized
  obtain ⟨pos, capacity, length, fits⟩ := carries.sized
  have content := carries.content
  rw [empty, List.nil_append] at content
  have grown := carries.sized.grown_eq
  refine ⟨m, there, content, carries.max, pos, capacity, fits, length, grown, ?_, ?_,
    Commons.answers there carries.sized, ?_⟩
  · rw [grown]
    exact Nat.le_min.2 ⟨by omega, by omega⟩
  · rw [grown]
    exact Nat.le_trans (Nat.min_le_right _ _) fits
  · intro accepted' taken' c'' later
    obtain ⟨m', found, more⟩ := later.conveys there carries.sized
    exact ⟨m', found, more.capacity⟩

/-- A mailbox for two messages accepts two, hands the next one back, gives the two away in
their order, and accepts another one. -/
theorem fifo_bounded : ∃ (c : Commons) (m : Mailbox Value),
    Traffic ⟨0⟩ (Commons.empty.addBox (.bounded 2)).2 [.str "a", .str "b", .str "d"]
      [.str "a", .str "b"] c ∧ c.box? ⟨0⟩ = some m ∧
      [.str "a", .str "b", .str "d"] = [.str "a", .str "b"] ++ m.ring.items ∧
      m.ring.items = [.str "d"] ∧ m.ring.capacity = 2 := by
  let c₀ : Commons := (Commons.empty.addBox (.bounded 2)).2
  let c₁ : Commons := (c₀.putNb ⟨0⟩ (.str "a")).2
  let c₂ : Commons := (c₁.putNb ⟨0⟩ (.str "b")).2
  let c₃ : Commons := (c₂.getNb ⟨0⟩).2
  let c₄ : Commons := (c₃.getNb ⟨0⟩).2
  let c₅ : Commons := (c₄.putNb ⟨0⟩ (.str "d")).2
  have first : Traffic ⟨0⟩ c₀ [.str "a"] [] c₁ := Traffic.nil.ask
    (show (Op.putNb ⟨0⟩ (.str "a")).perform c₀ .detached = (.ok true, c₁, .detached) from rfl)
  have second : Traffic ⟨0⟩ c₀ [.str "a", .str "b"] [] c₂ := first.ask
    (show (Op.putNb ⟨0⟩ (.str "b")).perform c₁ .detached = (.ok true, c₂, .detached) from rfl)
  have refused : Traffic ⟨0⟩ c₀ [.str "a", .str "b"] [] c₂ := second.tryPut
    (show c₂.tryPut ⟨0⟩ (.str "c") = (.error (.str "c"), c₂) from rfl)
  have got : Traffic ⟨0⟩ c₀ [.str "a", .str "b"] [.str "a"] c₃ := refused.ask
    (show (Op.getNb ⟨0⟩).perform c₂ .detached = (.ok (some (.str "a")), c₃, .detached) from rfl)
  have both : Traffic ⟨0⟩ c₀ [.str "a", .str "b"] [.str "a", .str "b"] c₄ := got.ask
    (show (Op.getNb ⟨0⟩).perform c₃ .detached = (.ok (some (.str "b")), c₄, .detached) from rfl)
  have last : Traffic ⟨0⟩ c₀ [.str "a", .str "b", .str "d"] [.str "a", .str "b"] c₅ := both.ask
    (show (Op.putNb ⟨0⟩ (.str "d")).perform c₄ .detached = (.ok true, c₅, .detached) from rfl)
  obtain ⟨m, here, content, -⟩ :=
    fifo (.bounded (by decide)) (show c₀.box? ⟨0⟩ = some (.bounded 2) from rfl) last
  have left : [Value.str "d"] = m.ring.items := by simpa using content
  cases here
  exact ⟨c₅, _, last, rfl, content, left.symm, rfl⟩

/-! ## The scheduler -/

theorem trans {accepted' taken' : List Value} {c'' : Commons}
    (first : Traffic id c accepted taken c') (second : Traffic id c' accepted' taken' c'') :
    Traffic id c (accepted ++ accepted') (taken ++ taken') c'' := by
  induction second with
  | nil => simpa using first
  | ask _ answer ih => simpa [List.append_assoc] using ih.ask answer
  | violate _ answer ih => exact ih.violate answer
  | tryPut _ answer ih => simpa [List.append_assoc] using ih.tryPut answer
  | leave _ t box ih => exact ih.leave t box
  | elsewhere _ same ih => exact ih.elsewhere same

end Traffic

namespace Commons

variable {σ : Type} {id : MailboxId} {c c' c'' : Commons}

/-- Some traffic leads from one state to another one. -/
def Leads (id : MailboxId) (c c' : Commons) : Prop :=
  ∃ accepted taken, Traffic id c accepted taken c'

theorem Leads.refl (c : Commons) : Leads id c c := ⟨[], [], .nil⟩

theorem Leads.trans (first : Leads id c c') (second : Leads id c' c'') : Leads id c c'' := by
  obtain ⟨accepted, taken, first⟩ := first
  obtain ⟨accepted', taken', second⟩ := second
  exact ⟨_, _, first.trans second⟩

theorem leads_same (c : Commons) (same : c'.boxes = c.boxes) : Leads id c c' :=
  ⟨[], [], Traffic.nil.elsewhere same⟩

theorem leads_perform (op : Op) (c : Commons) (f : Fiber) : Leads id c (op.perform c f).2.1 := by
  rcases answer : op.perform c f with ⟨v | r, c', f'⟩
  · exact ⟨_, _, Traffic.nil.violate answer⟩
  · exact ⟨_, _, Traffic.nil.ask answer⟩

/-- A timer puts its message as an outsider does. -/
theorem leads_advance (c : Commons) (time : Nat) : Leads id c (c.advance time) := by
  rw [advance_eq]
  exact List.foldlRecOn _ _ (leads_same c rfl) fun c' before e _ =>
    before.trans (leads_perform (.putNb e.payload.1 e.payload.2) c' .detached)

theorem leads_forget (c : Commons) (t : TaskId) (box : MailboxId) : Leads id c (c.forget t box) :=
  ⟨_, _, Traffic.nil.leave t box⟩

theorem leads_stopListening (c : Commons) (f : Fiber) : Leads id c (c.stopListening f).1 := by
  unfold stopListening
  split
  · exact Leads.refl c
  · exact List.foldlRecOn _ _ (Leads.refl c) fun c' before box _ =>
      before.trans (leads_forget c' _ box)

theorem leads_runTimed {α : Type} (d : Drive σ α) (left : Nat) (s : Scene σ) :
    Leads id s.commons (d.runTimed left s).2.commons := by
  induction d generalizing left s with
  | done a => exact Leads.refl _
  | violate message => exact Leads.refl _
  | diverge => exact Leads.refl _
  | commit body next ih => exact ih () left { s with body }
  | ask op next ih =>
    have ticked : Leads id s.commons (if left = 0 then s.commons.tick else s.commons) := by
      split
      · exact leads_advance _ _
      · exact Leads.refl _
    have performed : Leads id _ _ :=
      leads_perform op (if left = 0 then s.commons.tick else s.commons) s.fiber
    rw [Drive.runTimed]
    rcases answer : op.perform (if left = 0 then s.commons.tick else s.commons) s.fiber with
      ⟨v | r, c', f'⟩
    · rw [answer] at performed
      exact ticked.trans performed
    · rw [answer] at performed
      exact (ticked.trans performed).trans (ih r _ { s with commons := c', fiber := f' })

end Commons

namespace TaskPool

variable {σ : Type} {id : MailboxId} {s s' : TaskPool σ} {t : TaskId}

theorem leads_endDrive (s : TaskPool σ) (t : TaskId) (ending : Ending DriveEnd) (scene : Scene σ) :
    Commons.Leads id scene.commons (s.endDrive t ending scene).2.commons := by
  cases ending with
  | finished e =>
    obtain ⟨result, same⟩ | ⟨-, -, same⟩ := Commons.endDrive_cases s t e scene
    · rw [same]
      exact (Commons.leads_stopListening _ _).trans (Commons.leads_same _ Commons.boxes_finish)
    · rw [same]
      exact Commons.leads_same _ Commons.boxes_conclude
  | violated message => exact Commons.leads_stopListening _ _
  | diverged => exact Commons.Leads.refl _

/-- A drive by the scheduler is traffic to every mailbox, whatever the body does. -/
theorem leads_step? {exec : σ → Drive σ DriveEnd} {e : Ending Unit}
    (step : s.step? exec = some (t, e, s')) : Commons.Leads id s.commons s'.commons := by
  obtain ⟨rest, queue, same⟩ := step?_cases step
  have begun : Commons.Leads id s.commons (s.popped rest).commons :=
    Commons.leads_same s.commons rfl
  cases found : (s.popped rest).engine? t with
  | none =>
    rw [drive_none found] at same
    rw [← show s.popped rest = s' from congrArg Prod.snd same]
    exact begun
  | some engine =>
    rw [drive_some found] at same
    rw [← show _ = s' from congrArg Prod.snd same]
    have opened := begun.trans (Commons.leads_stopListening _ engine.fiber)
    have driven := opened.trans (Commons.leads_runTimed (exec engine.body) Commons.pace
      ((s.popped rest).opening engine))
    exact driven.trans (leads_endDrive _ _ _ _)

end TaskPool

end Resumable
