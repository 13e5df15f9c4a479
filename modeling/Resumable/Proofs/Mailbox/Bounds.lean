import Mathlib.Tactic.SplitIfs
import Resumable.Mailbox.Basic

/-!
# The bounds of a buffer

A buffer that was made with a bound of 64 bits keeps its bounds (`Ring.Sized`): it has a
slot at least, never more slots than it may have, and a slot for every item.

Whether an item is refused is decided by the slots: they are all taken and there can be no
more.  `Ring.Sized.push?_eq_none_iff` says that this is so exactly when the buffer holds as
many items as it may, which is what `hasSpace` looks at.
-/

namespace Resumable

namespace Ring

variable {α : Type} {r r' : Ring α} {a : α}

/-- The bounds that a buffer keeps. -/
structure Sized (r : Ring α) : Prop where
  pos : 1 ≤ r.capacity
  capacity_le : r.capacity ≤ r.max
  length_le : r.items.length ≤ r.capacity
  max_le : r.max ≤ largest

theorem sized_ofCapacity {initial max : Nat} (fits : max ≤ largest) :
    (ofCapacity initial max : Ring α).Sized := by
  have one : 1 ≤ largest := by decide
  unfold ofCapacity
  constructor <;> simp only [List.length_nil, Nat.min_def, Nat.max_def] <;> split_ifs <;> omega

theorem hasSpace_iff : r.hasSpace = true ↔ r.items.length < r.max := by
  unfold hasSpace
  exact decide_eq_true_iff

/-- A buffer without space is full. -/
theorem full_of_hasSpace (h : r.Sized) (none : r.hasSpace = false) : r.items.length = r.max := by
  have capacity := h.capacity_le
  have length := h.length_le
  have filled := mt hasSpace_iff.2 (Bool.eq_false_iff.1 none)
  omega

namespace Sized

/-- Doubling never passes the largest number of slots before it passes the bound. -/
theorem grown_eq (h : r.Sized) : r.grown = Nat.min (2 * r.capacity) r.max := by
  have fits := h.max_le
  unfold grown
  simp only [Nat.min_def]
  split_ifs <;> omega

/-- Doubling adds a slot at least, if there can be more. -/
theorem lt_grown (h : r.Sized) (room : r.capacity < r.max) :
    r.capacity < r.grown ∧ r.grown ≤ r.max := by
  have pos := h.pos
  rw [h.grown_eq]
  simp only [Nat.min_def]
  split_ifs <;> omega

theorem length_le_max (h : r.Sized) : r.items.length ≤ r.max :=
  Nat.le_trans h.length_le h.capacity_le

/-- An item is refused exactly when the buffer holds as many as it may. -/
theorem push?_eq_none_iff (h : r.Sized) : r.push? a = none ↔ r.items.length = r.max := by
  have capacity := h.capacity_le
  have length := h.length_le
  unfold push?
  split_ifs with taken full
  · exact iff_of_true rfl (taken.trans full)
  · exact iff_of_false nofun (by omega)
  · exact iff_of_false nofun (by omega)

/-- A new item may add slots and leaves the bounds. -/
theorem push? (h : r.Sized) (push : r.push? a = some r') :
    r'.Sized ∧ r'.max = r.max ∧ r.capacity ≤ r'.capacity := by
  obtain ⟨pos, capacity, length, fits⟩ := h
  unfold Ring.push? at push
  split_ifs at push with taken full
  · obtain ⟨more, bound⟩ := lt_grown ⟨pos, capacity, length, fits⟩ (by omega)
    cases push
    exact ⟨⟨by simp only; omega, bound, by simp; omega, fits⟩, rfl, by simp only; omega⟩
  · cases push
    exact ⟨⟨pos, capacity, by simp; omega, fits⟩, rfl, Nat.le_refl _⟩

theorem pop? (h : r.Sized) (pop : r.pop? = some (a, r')) :
    r' = { r with items := r'.items } ∧ r'.Sized ∧ r'.hasSpace = true := by
  have content := items_of_pop? pop
  have same : r' = { r with items := r'.items } := by
    unfold Ring.pop? at pop
    split at pop
    · cases pop
    · cases pop
      rfl
  have length := h.length_le
  have capacity := h.capacity_le
  rw [content, List.length_cons] at length
  rw [hasSpace_iff]
  rw [same]
  exact ⟨rfl, ⟨h.pos, h.capacity_le, by simp only; omega, h.max_le⟩, by simp only; omega⟩

end Sized

end Ring

namespace Mailbox

variable {α : Type} {m m' : Mailbox α} {a : α} {woken : Option TaskId}

/-- The mailboxes that can be made, with capacities of 64 bits. -/
inductive Made : Mailbox α → Prop
  | unbounded : Made .unbounded
  | bounded {max : Nat} (fits : max ≤ Ring.largest) : Made (.bounded max)
  | withCapacity {slotBytes initial max : Nat} {m : Mailbox α} (fits : max ≤ Ring.largest)
    (made : withCapacity slotBytes initial max = .ok m) : Made m

/-- A new mailbox is empty, and nobody waits on it. -/
theorem Made.empty (made : m.Made) :
    m.ring.Sized ∧ m.ring.items = [] ∧ m.consumer = none ∧ m.producers = [] := by
  have new : ∀ {initial max : Nat}, max ≤ Ring.largest →
      (ofCapacity initial max : Mailbox α).ring.Sized ∧
        (ofCapacity initial max : Mailbox α).ring.items = [] ∧
        (ofCapacity initial max : Mailbox α).consumer = none ∧
        (ofCapacity initial max : Mailbox α).producers = [] :=
    fun fits => ⟨Ring.sized_ofCapacity fits, rfl, rfl, rfl⟩
  cases made with
  | unbounded => exact new (Nat.le_refl _)
  | bounded fits => exact new (Nat.max_le.2 ⟨fits, by decide⟩)
  | withCapacity fits made =>
    unfold Mailbox.withCapacity at made
    split_ifs at made
    cases made
    exact new fits

/-! ## Taking and giving -/

theorem take?_eq_none_iff : m.take? = none ↔ m.ring.items = [] := by
  rw [← Ring.pop?_eq_none_iff]
  unfold take?
  cases m.ring.pop? with
  | none => simp
  | some taken =>
    simp only [reduceCtorEq, iff_false]
    split <;> exact nofun

/-- The oldest message is taken, and the producer that has waited longest leaves the line:
there is always space for it now. -/
theorem take?_eq_some (sized : m.ring.Sized) (take : m.take? = some (a, woken, m')) :
    ∃ rest, m.ring.items = a :: rest ∧ woken = m.producers.head? ∧
      m' = { m with ring := { m.ring with items := rest }, producers := m.producers.tail } ∧
      m'.ring.Sized := by
  unfold take? at take
  split at take
  · cases take
  · rename_i b ring pop
    obtain ⟨same, sized', space⟩ := sized.pop? pop
    rw [if_pos space] at take
    cases take
    exact ⟨ring.items, Ring.items_of_pop? pop, rfl, by rw [← same], sized'⟩

/-- Whoever is woken waited on the mailbox, whatever its buffer is. -/
theorem take?_listeners (take : m.take? = some (a, woken, m')) :
    (∀ t, woken = some t → t ∈ m.producers) ∧ m'.consumer = m.consumer ∧
      ∀ t ∈ m'.producers, t ∈ m.producers := by
  unfold take? at take
  split at take
  · cases take
  · split at take
    · cases take
      exact ⟨fun t => List.mem_of_mem_head?, rfl, fun t => List.mem_of_mem_tail⟩
    · cases take
      exact ⟨nofun, rfl, fun t => id⟩

/-- Only the producer that is woken leaves the line. -/
theorem take?_line (take : m.take? = some (a, woken, m')) :
    m'.producers.Sublist m.producers := by
  unfold take? at take
  split at take
  · cases take
  · split at take
    · cases take
      exact List.tail_sublist _
    · cases take
      exact List.Sublist.refl _

theorem give?_listeners (give : m.give? a = some (woken, m')) :
    woken = m.consumer ∧ m'.consumer = none ∧ m'.producers = m.producers := by
  unfold give? at give
  split at give
  · cases give
  · cases give
    exact ⟨rfl, rfl, rfl⟩

/-- A mailbox that is not empty gives its oldest message. -/
theorem take?_of_items (sized : m.ring.Sized) {rest : List α} (items : m.ring.items = a :: rest) :
    m.take? = some (a, m.producers.head?,
      { m with ring := { m.ring with items := rest }, producers := m.producers.tail }) := by
  cases take : m.take? with
  | none =>
    rw [take?_eq_none_iff.1 take] at items
    cases items
  | some taken =>
    obtain ⟨b, woken, m'⟩ := taken
    obtain ⟨rest', items', rfl, rfl, -⟩ := take?_eq_some sized take
    rw [items] at items'
    cases items'
    rfl

theorem give?_eq_none_iff (sized : m.ring.Sized) :
    m.give? a = none ↔ m.ring.items.length = m.ring.max := by
  rw [← sized.push?_eq_none_iff (a := a)]
  unfold give?
  split <;> simp_all

/-- The message goes to the end of the buffer, and the consumer is not one any more. -/
theorem give?_eq_some (sized : m.ring.Sized) (give : m.give? a = some (woken, m')) :
    woken = m.consumer ∧ m' = { m with ring := m'.ring, consumer := none } ∧
      m'.ring.items = m.ring.items ++ [a] ∧ m'.ring.max = m.ring.max ∧
      m.ring.capacity ≤ m'.ring.capacity ∧ m'.ring.Sized := by
  unfold give? at give
  split at give
  · cases give
  · rename_i ring push
    obtain ⟨sized', max, capacity⟩ := sized.push? push
    cases give
    exact ⟨rfl, rfl, Ring.items_of_push? push, max, capacity, sized'⟩

/-! ## Ceasing to wait -/

theorem ring_removeListener {t : TaskId} : (m.removeListener t).ring = m.ring := by
  unfold removeListener removeProducer removeConsumer
  split <;> rfl

theorem producers_removeListener {t : TaskId} :
    (m.removeListener t).producers = m.producers.filter (· ≠ t) := by
  unfold removeListener removeProducer removeConsumer
  split <;> rfl

theorem consumer_removeListener {t u : TaskId} :
    (m.removeListener t).consumer = some u ↔ m.consumer = some u ∧ u ≠ t := by
  unfold removeListener removeProducer removeConsumer
  split
  · rename_i same
    simp [same, eq_comm]
  · rename_i ne
    refine (and_iff_left_of_imp fun waits => ?_).symm
    rintro rfl
    exact ne waits

end Mailbox

end Resumable
