import Mathlib.Data.List.Nodup
import Resumable.Proofs.Mailbox.Bounds
import Resumable.Task.Fiber

/-!
# Mailboxes that know who waits

A mailbox is tended (`Mailbox.Tended`) when the tasks that it holds as consumer and producers
are exactly those that wait for it, and each of them has a reason to wait: there is no message,
or there is no space.

The second is not quite true.  When a message is taken from a full mailbox, the first producer
is woken, but the others go on to wait although there is space for a while.  The
space is spoken for: a producer that was woken will add its message when it is driven.  So what
holds is that the messages there are and those that are owed, from producers that are awake,
fill the mailbox as long as anybody waits for space.

There is one lemma for each operation.
-/

namespace Resumable.Mailbox

variable {α : Type} {m m' : Mailbox α} {a : α} {id : MailboxId} {woken : Option TaskId} {t : TaskId}
  {role role' : TaskId → PauseReason → Prop} {owed owed' : Nat}

/-- The tasks that wait for a message or for space are known, and not forgotten: as long as
some wait for space, the messages and those that are owed fill the mailbox. -/
structure Tended (m : Mailbox α) (id : MailboxId) (role : TaskId → PauseReason → Prop)
    (owed : Nat) : Prop where
  sized : m.ring.Sized
  consumer : ∀ u, m.consumer = some u ↔ role u (.waitingForMessage id)
  empty : m.consumer ≠ none → m.ring.items = []
  nodup : m.producers.Nodup
  producers : ∀ u, u ∈ m.producers ↔ role u (.waitingForSpace id)
  room : m.producers ≠ [] → m.ring.max ≤ m.ring.items.length + owed

namespace Tended

theorem congr (h : m.Tended id role owed)
    (message : ∀ u, role' u (.waitingForMessage id) ↔ role u (.waitingForMessage id))
    (space : ∀ u, role' u (.waitingForSpace id) ↔ role u (.waitingForSpace id))
    (more : owed ≤ owed') : m.Tended id role' owed' where
  sized := h.sized
  consumer u := (h.consumer u).trans (message u).symm
  empty := h.empty
  nodup := h.nodup
  producers u := (h.producers u).trans (space u).symm
  room waiting := Nat.le_trans (h.room waiting) (Nat.add_le_add_left more _)

/-- A new mailbox is tended by nobody. -/
theorem ofMade (made : m.Made)
    (message : ∀ u, ¬ role u (.waitingForMessage id))
    (space : ∀ u, ¬ role u (.waitingForSpace id)) : m.Tended id role owed := by
  obtain ⟨sized, items, consumer, producers⟩ := made.empty
  refine ⟨sized, fun u => ?_, fun waits => absurd consumer waits, ?_, fun u => ?_, ?_⟩
  · rw [consumer]
    exact iff_of_false nofun (message u)
  · rw [producers]
    exact List.nodup_nil
  · rw [producers]
    exact iff_of_false List.not_mem_nil (space u)
  · exact fun waiting => absurd producers waiting

/-- Nobody waits for a message when there is one. -/
theorem consumer_none (h : m.Tended id role owed) (some : m.ring.items ≠ []) :
    m.consumer = none := by
  cases waits : m.consumer with
  | none => rfl
  | some u => exact absurd (h.empty (by rw [waits]; exact nofun)) some

/-- A message arrives, perhaps one that was owed. -/
theorem give (h : m.Tended id role owed)
    (apart : ∀ u, role u (.waitingForMessage id) → ¬ role u (.waitingForSpace id))
    (give : m.give? a = some (woken, m'))
    (sleeps : ∀ u why, role' u why ↔ role u why ∧ woken ≠ some u)
    (less : owed ≤ owed' + 1) : m'.Tended id role' owed' := by
  obtain ⟨rfl, same, items, max, -, sized⟩ := give?_eq_some h.sized give
  have consumer : m'.consumer = none := by rw [same]
  have producers : m'.producers = m.producers := by rw [same]
  refine ⟨sized, fun u => ?_, fun waits => absurd consumer waits, ?_, fun u => ?_, ?_⟩
  · rw [consumer, sleeps, ← h.consumer]
    exact iff_of_false nofun fun ⟨waits, gone⟩ => gone waits
  · rw [producers]
    exact h.nodup
  · rw [producers, h.producers, sleeps]
    refine (and_iff_left_of_imp fun waits there => ?_).symm
    exact apart u ((h.consumer u).1 there) waits
  · rw [producers, items, max, List.length_append]
    intro waiting
    have room := h.room waiting
    simp only [List.length_singleton]
    omega

/-- A message is taken, and the producer that is woken will add one. -/
theorem take (h : m.Tended id role owed)
    (take : m.take? = some (a, woken, m'))
    (sleeps : ∀ u why, role' u why ↔ role u why ∧ woken ≠ some u)
    (more : woken ≠ none → owed + 1 ≤ owed') : m'.Tended id role' owed' := by
  obtain ⟨rest, items, rfl, rfl, sized⟩ := take?_eq_some h.sized take
  have consumer : m.consumer = none := h.consumer_none (by rw [items]; exact nofun)
  refine ⟨sized, fun u => ?_, fun waits => absurd consumer waits, h.nodup.tail, fun u => ?_, ?_⟩
  · rw [sleeps, ← h.consumer]
    simp only [consumer]
    exact iff_of_false nofun fun ⟨waits, _⟩ => nomatch waits
  · rw [sleeps, ← h.producers]
    have nodup := h.nodup
    cases line : m.producers with
    | nil => simp
    | cons first others =>
      rw [line] at nodup
      have once := (List.nodup_cons.1 nodup).1
      simp only [List.tail_cons, List.mem_cons, List.head?_cons, ne_eq, Option.some.injEq]
      constructor
      · exact fun waits => ⟨Or.inr waits, fun same => once (same ▸ waits)⟩
      · rintro ⟨rfl | waits, ne⟩
        · exact absurd rfl ne
        · exact waits
  · intro waiting
    have line : m.producers ≠ [] := by
      rintro line
      rw [line] at waiting
      exact waiting rfl
    have room := h.room line
    have woken := more (mt List.head?_eq_none_iff.1 line)
    rw [items, List.length_cons] at room
    simp only
    omega

/-- A task that finds no message becomes the consumer. -/
theorem await (h : m.Tended id role owed) (free : m.consumer = none) (none : m.ring.items = [])
    (message : ∀ u, role' u (.waitingForMessage id) ↔ role u (.waitingForMessage id) ∨ u = t)
    (space : ∀ u, role' u (.waitingForSpace id) ↔ role u (.waitingForSpace id)) :
    (m.await t).Tended id role' owed where
  sized := h.sized
  consumer u := by
    rw [message, ← h.consumer, free]
    simp [Mailbox.await, eq_comm]
  empty _ := none
  nodup := h.nodup
  producers u := (h.producers u).trans (space u).symm
  room := h.room

/-- A task that finds no space joins the producers.  Nothing needs to be owed to a mailbox
that is full. -/
theorem enqueue (h : m.Tended id role owed) (absent : t ∉ m.producers)
    (full : m.ring.items.length = m.ring.max)
    (message : ∀ u, role' u (.waitingForMessage id) ↔ role u (.waitingForMessage id))
    (space : ∀ u, role' u (.waitingForSpace id) ↔ role u (.waitingForSpace id) ∨ u = t) :
    (m.enqueue t).Tended id role' owed' := by
  unfold Mailbox.enqueue
  rw [if_neg absent]
  refine ⟨h.sized, fun u => (h.consumer u).trans (message u).symm, h.empty, ?_, fun u => ?_, ?_⟩
  · exact h.nodup.append (List.nodup_singleton t) (List.disjoint_singleton.2 absent)
  · rw [space, ← h.producers]
    simp
  · simp only
    omega

/-- A task ceases to wait. -/
theorem removeListener (h : m.Tended id role owed)
    (message : ∀ u, role' u (.waitingForMessage id) ↔ role u (.waitingForMessage id) ∧ u ≠ t)
    (space : ∀ u, role' u (.waitingForSpace id) ↔ role u (.waitingForSpace id) ∧ u ≠ t) :
    (m.removeListener t).Tended id role' owed := by
  refine ⟨?_, fun u => ?_, fun waits => ?_, ?_, fun u => ?_, ?_⟩
  · rw [ring_removeListener]
    exact h.sized
  · rw [consumer_removeListener, message, h.consumer]
  · rw [ring_removeListener]
    obtain ⟨u, there⟩ := Option.ne_none_iff_exists'.1 waits
    exact h.empty (by rw [(consumer_removeListener.1 there).1]; exact nofun)
  · rw [producers_removeListener]
    exact h.nodup.filter _
  · rw [producers_removeListener, space, ← h.producers]
    simp
  · rw [producers_removeListener, ring_removeListener]
    intro waiting
    refine h.room ?_
    rintro line
    rw [line] at waiting
    exact waiting rfl

end Tended

end Resumable.Mailbox
