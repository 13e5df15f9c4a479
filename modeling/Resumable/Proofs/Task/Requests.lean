import Mathlib.Logic.Function.Basic
import Resumable.Proofs.Mailbox.Traffic
import Resumable.Proofs.Task.Drive

/-!
# What a drive asks for

`Drive.Runs` with the requests that were answered on the way (`Drive.Logs`).  An `Ask` keeps
what tasks shared just before and just after, so a log tells what was done to the mailboxes
and not only what was asked for: a put adds the message that its answer says was accepted at
the back of one mailbox (`Commons.Accepts`), a get takes the one that its answer says was given
from the front (`Commons.Gives`), and all other messages stay where they are.

Many requests concern nobody but the body and its own fiber.  `Drive.Records` says what the
others are in every run of a drive; it goes through a drive request by request.
-/

namespace Resumable

/-! ## The messages in the mailboxes -/

namespace Commons

/-- The messages in a mailbox, oldest first. -/
def messages (c : Commons) (id : MailboxId) : List Value :=
  ((c.box? id).map (·.ring.items)).getD []

variable {c c' : Commons} {id box : MailboxId} {m m₀ : Mailbox Value} {v : Value} {f f' : Fiber}

theorem messages_of_box? (here : c.box? id = some m) : c.messages id = m.ring.items := by
  unfold messages
  rw [here]
  rfl

theorem messages_congr (same : c'.boxes = c.boxes) : c'.messages = c.messages := by
  funext id
  unfold messages
  rw [box?_congr same]

@[simp] theorem messages_wake {woken : Option TaskId} : (c.wake woken).messages = c.messages :=
  messages_congr boxes_wake

theorem messages_setBox (here : c.box? id = some m₀) :
    (c.setBox id m).messages = Function.update c.messages id m.ring.items := by
  funext other
  rw [Function.update_apply]
  split
  · rename_i same
    exact messages_of_box? (by rw [box?_setBox here, if_pos same])
  · rename_i ne
    unfold messages
    rw [box?_setBox_ne ne]

/-- A mailbox whose messages stay. -/
theorem messages_setBox_self (here : c.box? id = some m₀) (same : m.ring = m₀.ring) :
    (c.setBox id m).messages = c.messages := by
  rw [messages_setBox here, same, ← messages_of_box? here, Function.update_eq_self]

end Commons

namespace Mailbox

variable {m m' : Mailbox Value} {v : Value} {woken : Option TaskId}

theorem items_of_give? (give : m.give? v = some (woken, m')) :
    m'.ring.items = m.ring.items ++ [v] := by
  unfold give? at give
  split at give
  · cases give
  · rename_i ring push
    cases give
    exact Ring.items_of_push? push

theorem ring_removeConsumer (m : Mailbox Value) (t : TaskId) :
    (m.removeConsumer t).ring = m.ring := by
  unfold removeConsumer
  split <;> rfl

theorem items_of_take? (take : m.take? = some (v, woken, m')) :
    m.ring.items = v :: m'.ring.items := by
  unfold take? at take
  split at take
  · cases take
  · rename_i a ring pop
    split at take
    · cases take
      exact Ring.items_of_pop? pop
    · cases take
      exact Ring.items_of_pop? pop

end Mailbox

namespace Commons

variable {c c' : Commons} {id box : MailboxId} {m m₀ : Mailbox Value} {v : Value} {f f' : Fiber}

/-- What becomes of the messages when one is to be put into a mailbox: it stands at the back
if it was accepted, and all others stay where they are. -/
def Accepts (c : Commons) (box : MailboxId) (v : Value) (accepted : Bool) (c' : Commons) : Prop :=
  c'.messages = if accepted then Function.update c.messages box (c.messages box ++ [v])
    else c.messages

/-- What becomes of the messages when one is to be taken out of a mailbox: the one at the front
is gone if there was one, and all others stay where they are. -/
def Gives (c : Commons) (box : MailboxId) (given : Option Value) (c' : Commons) : Prop :=
  match given with
  | some v => ∃ rest, c.messages box = v :: rest ∧
      c'.messages = Function.update c.messages box rest
  | none => c'.messages = c.messages

theorem accepts_give (here : c.box? box = some m₀) {woken : Option TaskId}
    (give : m₀.give? v = some (woken, m')) (same : m.ring = m'.ring) :
    c.Accepts box v true ((c.setBox box m).wake woken) := by
  unfold Accepts
  rw [if_pos rfl, messages_wake, messages_setBox here, messages_of_box? here, same,
    Mailbox.items_of_give? give]

theorem gives_take (here : c.box? box = some m₀) {woken : Option TaskId}
    (take : m₀.take? = some (v, woken, m')) (same : m.ring = m'.ring) :
    c.Gives box (some v) ((c.setBox box m).wake woken) := by
  refine ⟨m'.ring.items, ?_, ?_⟩
  · rw [messages_of_box? here, Mailbox.items_of_take? take]
  · rw [messages_wake, messages_setBox here, same]

theorem accepts_put {r : Bool} (answer : c.put f box v = (.ok r, c', f')) :
    c.Accepts box v r c' := by
  unfold put at answer
  split at answer
  · cases answer
    rfl
  · rename_i m here
    split at answer
    · rename_i woken m' give
      cases answer
      refine accepts_give here give ?_
      cases f.task <;> rfl
    · split at answer
      · cases answer
      · cases answer
        refine messages_setBox_self here ?_
        unfold Mailbox.enqueue
        split <;> rfl

theorem accepts_putNb (c : Commons) (box : MailboxId) (v : Value) :
    c.Accepts box v (c.putNb box v).1 (c.putNb box v).2 := by
  unfold putNb
  split
  · rename_i woken m' given
    obtain ⟨m, here, give⟩ := Option.bind_eq_some_iff.1 given
    exact accepts_give here give rfl
  · rfl

theorem gives_get {r : Option Value} (answer : c.get f box = (.ok r, c', f')) :
    c.Gives box r c' := by
  unfold get at answer
  split at answer
  · cases answer
    rfl
  · rename_i m here
    split at answer
    · rename_i v woken m' take
      cases answer
      refine gives_take here take ?_
      cases f.task with
      | none => rfl
      | some t => exact m'.ring_removeConsumer t
    · split at answer
      · cases answer
      · split at answer
        · split at answer
          · cases answer
            exact messages_setBox_self here rfl
          · cases answer
        · cases answer
          exact messages_setBox_self here rfl

theorem gives_getNb (c : Commons) (box : MailboxId) :
    c.Gives box (c.getNb box).1 (c.getNb box).2 := by
  unfold getNb
  split
  · rename_i v woken m' taken
    obtain ⟨m, here, take⟩ := Option.bind_eq_some_iff.1 taken
    exact gives_take here take rfl
  · rfl

end Commons

/-! ## Requests that were answered -/

/-- Whether a request concerns more than the body and its own fiber. -/
def Op.isOutward : Op → Bool
  | .texts => false
  | .unwind _ => false
  | .rewind => false
  | .unwindRest _ => false
  | .settle => false
  | .isSuspended => false
  | .pause _ => false
  | .offer _ => false
  | .fiberText => false
  | .currentTask => false
  | _ => true

/-- A request that was answered, with what tasks shared just before and just after. -/
structure Ask where
  op : Op
  reply : op.Reply
  before : Commons
  after : Commons
  /-- Some fiber was given this answer. -/
  granted : ∃ f f', op.perform before f = (.ok reply, after, f')

namespace Ask

/-- What was asked for, and the answer. -/
def Is (a : Ask) (op : Op) (r : op.Reply) : Prop :=
  (⟨a.op, a.reply⟩ : (op : Op) × op.Reply) = ⟨op, r⟩

/-- The requests of a log that concern others. -/
def outward (log : List Ask) : List Ask := log.filter (·.op.isOutward)

@[simp] theorem outward_nil : outward [] = [] := rfl

/-- A request about the own fiber is left out. -/
theorem Is.outward_own {a : Ask} {op : Op} {r : op.Reply} (is : a.Is op r)
    (inward : op.isOutward = false) (log : List Ask) : outward (a :: log) = outward log := by
  have same : a.op = op := congrArg Sigma.fst is
  exact List.filter_cons_of_neg (by rw [same, inward]; exact Bool.false_ne_true)

@[simp] theorem outward_append (log log' : List Ask) :
    outward (log ++ log') = outward log ++ outward log' :=
  List.filter_append ..

end Ask

namespace Drive

variable {σ α β : Type}

/-- A run of a drive, as in `Runs`, with the requests that were answered. -/
inductive Logs : Drive σ α → Fiber → σ → List Ask → Ending α → Fiber → σ → Prop
  | done {a : α} {f : Fiber} {s : σ} : Logs (.done a) f s [] (.finished a) f s
  | violate {message : String} {f : Fiber} {s : σ} :
    Logs (.violate message) f s [] (.violated message) f s
  | diverge {f : Fiber} {s : σ} : Logs .diverge f s [] .diverged f s
  | commit {next : Unit → Drive σ α} {f f' : Fiber} {s s' t : σ} {log : List Ask} {e : Ending α}
      (rest : Logs (next ()) f s' log e f' t) : Logs (.commit s' next) f s log e f' t
  | answered {op : Op} {next : op.Reply → Drive σ α} {c c' : Commons} {r : op.Reply}
      {f f' f'' : Fiber} {s t : σ} {log : List Ask} {e : Ending α}
      (answer : op.perform c f = (.ok r, c', f')) (rest : Logs (next r) f' s log e f'' t) :
    Logs (.ask op next) f s (⟨op, r, c, c', f, f', answer⟩ :: log) e f'' t
  | refused {op : Op} {next : op.Reply → Drive σ α} {c c' : Commons}
      {v : Commons.Violation} {f f' : Fiber} {s : σ}
      (answer : op.perform c f = (.error v, c', f')) :
    Logs (.ask op next) f s [] (.violated v.message) f' s

variable {d : Drive σ α} {g : α → Drive σ β} {f f' : Fiber} {s s' : σ} {log : List Ask}

/-- Every run can be told. -/
theorem Runs.logs {e : Ending α} (run : Runs d f s e f' s') :
    ∃ log, Logs d f s log e f' s' := by
  induction run with
  | done => exact ⟨[], .done⟩
  | violate => exact ⟨[], .violate⟩
  | diverge => exact ⟨[], .diverge⟩
  | commit _ ih =>
    obtain ⟨log, logs⟩ := ih
    exact ⟨log, .commit logs⟩
  | answered answer _ ih =>
    obtain ⟨log, logs⟩ := ih
    exact ⟨_, .answered answer logs⟩
  | refused answer => exact ⟨[], .refused answer⟩

/-- What a sequence asks for: its first part comes first, or that is all of it. -/
theorem Logs.bind_cases {e : Ending β} (h : Logs (d.bind g) f s log e f' s') :
    (∃ a f₁ s₁ first second, log = first ++ second ∧
        Logs d f s first (.finished a) f₁ s₁ ∧ Logs (g a) f₁ s₁ second e f' s') ∨
      (∃ message, e = .violated message ∧ Logs d f s log (.violated message) f' s') ∨
        e = .diverged ∧ Logs d f s log .diverged f' s' := by
  induction d generalizing f s log with
  | done a => exact Or.inl ⟨a, f, s, [], log, rfl, .done, h⟩
  | violate message =>
    cases h
    exact Or.inr (Or.inl ⟨message, rfl, .violate⟩)
  | diverge =>
    cases h
    exact Or.inr (Or.inr ⟨rfl, .diverge⟩)
  | commit body next ih =>
    cases h with
    | commit rest =>
      rcases ih () rest with ⟨a, f₁, s₁, first, second, rfl, run, more⟩ | ⟨message, rfl, run⟩ |
        ⟨rfl, run⟩
      · exact Or.inl ⟨a, f₁, s₁, first, second, rfl, .commit run, more⟩
      · exact Or.inr (Or.inl ⟨message, rfl, .commit run⟩)
      · exact Or.inr (Or.inr ⟨rfl, .commit run⟩)
  | ask op next ih =>
    cases h with
    | answered answer rest =>
      rcases ih _ rest with ⟨a, f₁, s₁, first, second, rfl, run, more⟩ | ⟨message, rfl, run⟩ |
        ⟨rfl, run⟩
      · exact Or.inl ⟨a, f₁, s₁, _ :: first, second, rfl, .answered answer run, more⟩
      · exact Or.inr (Or.inl ⟨message, rfl, .answered answer run⟩)
      · exact Or.inr (Or.inr ⟨rfl, .answered answer run⟩)
    | refused answer => exact Or.inr (Or.inl ⟨_, rfl, .refused answer⟩)

/-! ## What every run asks for -/

/-- What every run of a drive on a fiber has asked of others, and how it ends.  The body stays
as it is. -/
def Records (d : Drive σ α) (f : Fiber) (post : List Ask → Ending α → Fiber → Prop) : Prop :=
  ∀ s log e f' s', Logs d f s log e f' s' → s' = s ∧ post (Ask.outward log) e f'

variable {post : List Ask → Ending α → Fiber → Prop} {op : Op} {next : op.Reply → Drive σ α}

theorem Records.done {a : α} (h : post [] (.finished a) f) : Records (σ := σ) (.done a) f post := by
  intro s log e f' s' run
  cases run
  exact ⟨rfl, h⟩

/-- A request that concerns nobody else is not told, and is always answered. -/
theorem Records.own (inward : op.isOutward = false)
    (answered : ∀ c r c' f', op.perform c f = (.ok r, c', f') → Records (next r) f' post) :
    Records (.bind (.request op) next) f post := by
  intro s log e f'' s' run
  cases run with
  | @answered _ _ _ _ _ _ _ _ _ _ log _ answer rest =>
    rw [Ask.Is.outward_own rfl inward]
    exact answered _ _ _ _ answer _ _ _ _ _ rest
  | refused answer =>
    cases op with
    | get box => cases inward
    | put box v => cases inward
    | _ => cases answer

/-- A request to others is told first, unless it breaks the rules. -/
theorem Records.ask (outward : op.isOutward = true)
    (answered : ∀ c r c' f' (answer : op.perform c f = (.ok r, c', f')),
      Records (next r) f' fun log => post (⟨op, r, c, c', f, f', answer⟩ :: log))
    (refused : ∀ c v c' f', op.perform c f = (.error v, c', f') →
      post [] (.violated v.message) f') :
    Records (.bind (.request op) next) f post := by
  intro s log e f'' s' run
  cases run with
  | @answered _ _ _ _ _ _ _ _ _ _ log _ answer rest =>
    have told : ∀ a : Ask, a.op = op → Ask.outward (a :: log) = a :: Ask.outward log := by
      rintro a rfl
      exact List.filter_cons_of_pos outward
    rw [told _ rfl]
    exact answered _ _ _ _ answer _ _ _ _ _ rest
  | refused answer => exact ⟨rfl, refused _ _ _ _ answer⟩

/-! ## Drives that ask once at most -/

/-- A drive that ends at once, or after a request that concerns nobody else. -/
inductive Brief : Drive σ α → Prop
  | done {a : α} : Brief (.done a)
  | ask {op : Op} {g : op.Reply → α} (inward : op.isOutward = false) :
    Brief (.ask op fun r => .done (g r))

/-- Such a run asks nothing of others, leaves the body as it is, and is a run of `Drive.run`. -/
theorem Logs.brief {e : Ending α} (logs : Logs d f s log e f' s') (brief : Brief d) :
    s' = s ∧ Ask.outward log = [] ∧ ∃ c c', d.run ⟨c, f, s⟩ = (e, ⟨c', f', s⟩) := by
  cases brief with
  | done =>
    cases logs
    exact ⟨rfl, rfl, .empty, .empty, rfl⟩
  | @ask op g inward =>
    cases logs with
    | @answered _ _ c c' r _ _ _ _ _ _ _ answer rest =>
      cases rest
      refine ⟨rfl, Ask.Is.outward_own rfl inward [], c, c', ?_⟩
      rw [run, answer]
      rfl
    | @refused _ _ c c' v _ _ _ answer =>
      refine ⟨rfl, rfl, c, c', ?_⟩
      rw [run, answer]

end Drive

end Resumable
