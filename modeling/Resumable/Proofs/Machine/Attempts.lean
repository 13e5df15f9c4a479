import Resumable.Machine.Primitive
import Resumable.Proofs.Task.Requests

/-!
# Attempts at a primitive

A call of a primitive that has to wait is tried again from a frame, any number of times.
`Primitive.Pending` says what it has asked for until then: nothing but what was in vain, and
for a sleep the one timer.  `Primitive.Performs` says what it has asked for when it returns:
a put was accepted once, by its last request, and a get took one message, by its last request.

The first attempt begins with the arguments (`records_perform`), and every other one goes on
from the slots of the frame (`records_again`).
-/

namespace Resumable

/-! ## What was asked for -/

namespace Ask

/-- A message was to be put into a mailbox, and it was accepted or refused. -/
structure Puts (box : MailboxId) (v : Value) (accepted : Bool) (a : Ask) : Prop where
  asks : a.Is (.put box v) accepted
  accepts : a.before.Accepts box v accepted a.after

/-- As `Puts`, by a task that does not wait. -/
structure Offers (box : MailboxId) (v : Value) (accepted : Bool) (a : Ask) : Prop where
  asks : a.Is (.putNb box v) accepted
  accepts : a.before.Accepts box v accepted a.after

/-- A message was to be taken out of a mailbox, and there was one or none. -/
structure Gets (box : MailboxId) (given : Option Value) (a : Ask) : Prop where
  asks : a.Is (.get box) given
  gives : a.before.Gives box given a.after

/-- As `Gets`, by a task that does not wait. -/
structure Polls (box : MailboxId) (given : Option Value) (a : Ask) : Prop where
  asks : a.Is (.getNb box) given
  gives : a.before.Gives box given a.after

/-- A value was printed. -/
structure Prints (v : Value) (a : Ask) : Prop where
  asks : a.Is (.print v) ()
  prints : a.after = a.before.print v

/-- A new mailbox was made. -/
structure Makes (box : MailboxId) (a : Ask) : Prop where
  asks : a.Is (.makeBox 1) box
  new : a.before.addBox (.bounded 1) = (box, a.after)

/-- A timer was armed. -/
structure Arms (delay : Nat) (box : MailboxId) (a : Ask) : Prop where
  asks : a.Is (.timer delay box .unit) ()
  arms : a.after = a.before.timerAfter delay box .unit

end Ask

namespace Primitive

/-! ## What a call has asked for -/

/-- A call that waits, with what it has asked for and the slots of its frame. -/
inductive Pending (args : List Value) : Primitive → List Ask → List Value → Prop
  | yield : Pending args .yield [] []
  | get {box : MailboxId} {asks : List Ask} (arg : mailboxArg? args = some box)
      (missed : ∀ a ∈ asks, a.Gets box none) : Pending args .get asks args
  | put {box : MailboxId} {v : Value} {more : List Value} {asks : List Ask}
      (arg : args = .mailbox box :: v :: more) (refused : ∀ a ∈ asks, a.Puts box v false) :
    Pending args .put asks [.mailbox box, v]
  | sleep {delay : Nat} {alarm : MailboxId} {made armed : Ask} {asks : List Ask}
      (arg : duration? args = some delay) (makes : made.Makes alarm)
      (arms : armed.Arms delay alarm) (missed : ∀ a ∈ asks, a.Gets alarm none) :
    Pending args .sleep (made :: armed :: asks) [.mailbox alarm]

/-- A call that has returned, with what it has asked for. -/
inductive Performs (args : List Value) : Primitive → List Ask → Completion → Prop
  | print {a : Ask} (prints : a.Prints (firstOr args)) :
    Performs args .print [a] (.value .unit)
  | getNb {box : MailboxId} {r : Option Value} {a : Ask} (arg : mailboxArg? args = some box)
      (polls : a.Polls box r) : Performs args .getNb [a] (.value (r.getD .unit))
  | putNb {box : MailboxId} {v : Value} {more : List Value} {accepted : Bool} {a : Ask}
      (arg : args = .mailbox box :: v :: more) (offers : a.Offers box v accepted) :
    Performs args .putNb [a] (.value (.bool accepted))
  | yield : Performs args .yield [] (.value .unit)
  | get {box : MailboxId} {v : Value} {asks : List Ask} {last : Ask}
      (arg : mailboxArg? args = some box) (missed : ∀ a ∈ asks, a.Gets box none)
      (gets : last.Gets box (some v)) : Performs args .get (asks ++ [last]) (.value v)
  | put {box : MailboxId} {v : Value} {more : List Value} {asks : List Ask} {last : Ask}
      (arg : args = .mailbox box :: v :: more) (refused : ∀ a ∈ asks, a.Puts box v false)
      (puts : last.Puts box v true) : Performs args .put (asks ++ [last]) (.value .unit)
  | sleep {delay : Nat} {alarm : MailboxId} {v : Value} {made armed last : Ask}
      {asks : List Ask} (arg : duration? args = some delay) (makes : made.Makes alarm)
      (arms : armed.Arms delay alarm) (missed : ∀ a ∈ asks, a.Gets alarm none)
      (gets : last.Gets alarm (some v)) :
    Performs args .sleep (made :: armed :: asks ++ [last]) (.value .unit)

/-- A call that was begun and has not returned: it may not even have asked for anything. -/
def Begun (p : Primitive) (args : List Value) (asks : List Ask) : Prop :=
  asks = [] ∨ ∃ slots, p.Pending args asks slots

/-- The frame of a call that is to be tried again. -/
def frame (p : Primitive) (slots : List Value) : Frame := ⟨p.procId, retryState, slots⟩

/-- A call that gives up the worker, with the frames that it saves and the reason on the
fiber: it is to be tried again, or the task ends. -/
inductive Saves (p : Primitive) (args : List Value) (asks : List Ask) :
    List Frame → Option PauseReason → Prop
  | frame {slots : List Value} {reason : Option PauseReason}
      (pending : p.Pending args asks slots) : Saves p args asks [p.frame slots] reason
  | exit {reason : Option PauseReason} (suspends : p.suspends = true) (none : asks = [])
      (ends : reason.any PauseReason.isDone = true) : Saves p args asks [] reason

theorem Pending.suspends {p : Primitive} {args slots : List Value} {asks : List Ask}
    (h : p.Pending args asks slots) : p.suspends = true := by
  cases h <;> rfl

theorem Saves.suspends {p : Primitive} {args : List Value} {asks : List Ask}
    {inner : List Frame} {reason : Option PauseReason} (h : p.Saves args asks inner reason) :
    p.suspends = true := by
  cases h with
  | frame pending => exact pending.suspends
  | exit suspends _ _ => exact suspends

theorem Saves.begun {p : Primitive} {args : List Value} {asks : List Ask}
    {inner : List Frame} {reason : Option PauseReason} (h : p.Saves args asks inner reason) :
    p.Begun args asks := by
  cases h with
  | frame pending => exact Or.inr ⟨_, pending⟩
  | exit _ none _ => exact Or.inl none

/-- How an attempt ends, with what the whole call has asked for by then. -/
def Tries (p : Primitive) (args : List Value) (asks : List Ask) :
    Ending (Except MachineFault Outcome) → Fiber → Prop
  | .finished (.ok (.completed completion)), f => p.Performs args asks completion ∧ f.frames = []
  | .finished (.ok .suspended), f => p.Saves args asks f.frames f.reason
  | _, _ => p.Begun args asks

/-! ## One attempt -/

variable {p : Primitive} {args slots : List Value} {asks : List Ask} {f : Fiber} {σ : Type}
  {box : MailboxId} {v : Value} {more : List Value}

theorem records_suspendWith (asks : List Ask) (pending : p.Pending args asks slots)
    (clean : f.frames = []) :
    Drive.Records (σ := σ) (p.suspendWith slots) f fun new => p.Tries args (asks ++ new) := by
  refine .own rfl fun c r c' f' answer => .done ?_
  cases answer
  rw [List.append_nil]
  have held : (f.unwind (p.frame slots)).frames = [p.frame slots] := by
    unfold Fiber.unwind
    rw [clean]
    rfl
  show p.Saves args asks (f.unwind (p.frame slots)).frames f.reason
  rw [held]
  exact .frame pending

/-- A call waits for a message, or returns something with it. -/
theorem records_get (before asks : List Ask) (g : Value → Value)
    (pending : ∀ asks : List Ask, (∀ a ∈ asks, a.Gets box none) →
      p.Pending args (before ++ asks) slots)
    (performs : ∀ (asks : List Ask) (last : Ask) (v : Value), (∀ a ∈ asks, a.Gets box none) →
      last.Gets box (some v) → p.Performs args (before ++ (asks ++ [last])) (.value (g v)))
    (missed : ∀ a ∈ asks, a.Gets box none) (clean : f.frames = []) :
    Drive.Records (σ := σ) (.bind (.request (.get box)) fun
      | some v => .done (.ok (.returned (g v)))
      | none => p.suspendWith slots) f fun new => p.Tries args (before ++ asks ++ new) := by
  refine .ask rfl ?_ ?_
  · intro c r c' f' answer
    have kept : f'.frames = [] := by
      rw [← clean, ← Drive.frames_get c f box]
      exact congrArg (·.2.2.frames) answer.symm
    have gives := Commons.gives_get answer
    cases r with
    | some v =>
      refine .done ⟨?_, kept⟩
      rw [List.append_assoc]
      exact performs asks _ v missed ⟨rfl, gives⟩
    | none =>
      have missed' : ∀ a ∈ asks ++ [⟨.get box, none, c, c', f, f', answer⟩], a.Gets box none := by
        rw [List.forall_mem_append, List.forall_mem_singleton]
        exact ⟨missed, rfl, gives⟩
      have waits := records_suspendWith (σ := σ) _ (pending _ missed') kept
      simpa only [List.append_assoc, List.singleton_append] using waits
  · intro c v c' f' _
    rw [List.append_nil]
    exact Or.inr ⟨slots, pending asks missed⟩

/-- A call waits for space for its message, or its message is accepted. -/
theorem records_put (asks : List Ask) (arg : args = .mailbox box :: v :: more)
    (refused : ∀ a ∈ asks, a.Puts box v false) (clean : f.frames = []) :
    Drive.Records (σ := σ) (.bind (.request (.put box v)) fun
      | true => .done (.ok (.returned .unit))
      | false => Primitive.put.suspendWith [.mailbox box, v]) f
        fun new => Primitive.put.Tries args (asks ++ new) := by
  refine .ask rfl ?_ ?_
  · intro c r c' f' answer
    have kept : f'.frames = [] := by
      rw [← clean, ← Drive.frames_put c f box v]
      exact congrArg (·.2.2.frames) answer.symm
    have accepts := Commons.accepts_put answer
    cases r with
    | true => exact .done ⟨.put arg refused ⟨rfl, accepts⟩, kept⟩
    | false =>
      have refused' : ∀ a ∈ asks ++ [⟨.put box v, false, c, c', f, f', answer⟩],
          a.Puts box v false := by
        rw [List.forall_mem_append, List.forall_mem_singleton]
        exact ⟨refused, rfl, accepts⟩
      have waits := records_suspendWith (σ := σ) _ (.put arg refused') kept
      simpa only [List.append_assoc, List.singleton_append] using waits
  · intro c violation c' f' _
    rw [List.append_nil]
    exact Or.inr ⟨_, .put arg refused⟩

theorem records_awaitAlarm (asks : List Ask) {delay : Nat} {alarm : MailboxId}
    {made armed : Ask} (arg : duration? args = some delay) (makes : made.Makes alarm)
    (arms : armed.Arms delay alarm) (missed : ∀ a ∈ asks, a.Gets alarm none)
    (clean : f.frames = []) :
    Drive.Records (σ := σ) (awaitAlarm alarm) f
      fun new => Primitive.sleep.Tries args (made :: armed :: asks ++ new) :=
  records_get [made, armed] asks (fun _ => .unit)
    (fun _ missed => .sleep arg makes arms missed)
    (fun _ _ _ missed gets => .sleep arg makes arms missed gets) missed clean

/-- A call that ends the task. -/
theorem records_exit {result : TaskResult} (suspends : p.suspends = true) (clean : f.frames = []) :
    Drive.Records (σ := σ) (.bind (.request (.pause (.done result))) fun _ =>
      .done (.ok .suspended)) f (p.Tries args) := by
  refine .own rfl fun c r c' f' answer => .done ?_
  cases answer
  show p.Saves args [] f.frames (some (.done result))
  rw [clean]
  exact .exit suspends rfl rfl

/-- The first attempt at a call. -/
theorem records_perform (p : Primitive) (args : List Value) (clean : f.frames = []) :
    Drive.Records (σ := σ) (p.perform args false) f (p.Tries args) := by
  have none : ∀ p : Primitive, p.Begun args [] := fun _ => Or.inl rfl
  cases p with
  | print =>
    refine .ask rfl (fun c r c' f' answer => .done ⟨.print ⟨rfl, ?_⟩, ?_⟩) (fun _ _ _ _ _ => none _)
    all_goals cases answer
    · rfl
    · exact clean
  | getNb =>
    simp only [perform]
    split
    · exact .done (none _)
    · rename_i box arg
      refine .ask rfl (fun c r c' f' answer => .done ⟨.getNb arg ⟨rfl, ?_⟩, ?_⟩)
        (fun _ _ _ _ _ => none _)
      all_goals cases answer
      · exact c.gives_getNb box
      · exact clean
  | putNb =>
    simp only [perform]
    split
    · refine .ask rfl (fun c r c' f' answer => .done ⟨.putNb rfl ⟨rfl, ?_⟩, ?_⟩)
        (fun _ _ _ _ _ => none _)
      all_goals cases answer
      · exact c.accepts_putNb _ _
      · exact clean
    · exact .done (none _)
  | yield =>
    have waits : ∀ f' : Fiber, f'.frames = [] → Drive.Records (σ := σ)
        (.bind (.request (.pause .yielded)) fun _ => Primitive.yield.suspendWith []) f'
          (Primitive.yield.Tries args) := by
      intro f' clean
      refine .own rfl fun c r c' f'' answer => ?_
      cases answer
      exact records_suspendWith [] .yield clean
    simp only [perform]
    cases args with
    | nil => exact waits f clean
    | cons v more =>
      refine .own rfl fun c r c' f' answer => ?_
      cases answer
      exact waits (f.offer v) clean
  | get =>
    simp only [perform]
    split
    · exact .done (none _)
    · rename_i box arg
      exact records_get [] [] (fun v => v) (fun _ missed => .get arg missed)
        (fun _ _ _ missed gets => .get arg missed gets) (by simp) clean
  | put =>
    simp only [perform]
    split
    · exact records_put [] rfl (by simp) clean
    · exact .done (none _)
  | sleep =>
    simp only [perform, Bool.false_eq_true, if_false]
    split
    · exact .done (none _)
    · rename_i delay arg
      refine .ask rfl (fun c alarm c' f' made => ?_) (fun _ _ _ _ _ => none _)
      cases made
      refine .ask rfl (fun c' _ c'' f' armed => ?_) (fun _ _ _ _ refused => ?_)
      · cases armed
        exact records_awaitAlarm [] arg ⟨rfl, rfl⟩ ⟨rfl, rfl⟩ (by simp) clean
      · cases refused
  | exit => exact records_exit rfl clean
  | errorExit => exact records_exit rfl clean

/-- Another attempt at a call that waits. -/
theorem records_again (pending : p.Pending args asks slots) (clean : f.frames = []) :
    Drive.Records (σ := σ) (p.perform slots true) f fun new => p.Tries args (asks ++ new) := by
  cases pending with
  | yield => exact .done ⟨.yield, clean⟩
  | get arg missed =>
    simp only [perform, arg]
    exact records_get [] _ (fun v => v) (fun _ missed => .get arg missed)
      (fun _ _ _ missed gets => .get arg missed gets) missed clean
  | put arg refused => exact records_put _ arg refused clean
  | sleep arg makes arms missed => exact records_awaitAlarm _ arg makes arms missed clean

end Primitive

end Resumable
