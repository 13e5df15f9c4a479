import Mathlib.Data.List.Nodup
import Mathlib.Data.Nat.Find
import Resumable.Task.Timer

/-!
# Timers fire once and in order

What a queue of timers gives back, said of the calls that were made and not of the queue.

* `Inserted` is the entry that a call of `insert` makes, `FirstDue` the first later call of
  `popExpired` at whose time it is due.
* `Drains` is a call of `popExpired` on any heap that pops an entry which no other goes
  before.  `TimerQueue` is such a heap (`drains_splitDue`); the results hold for all of them.
* `Holds` is the invariant: a queue holds the entries that were not due at any call so far.
  `Runs.spec` carries it through a run.

`fires_once_in_order` is the main result.
-/

namespace Resumable

variable {α : Type}

/-! ## The order of entries -/

namespace TimerEntry

variable {a b c : TimerEntry α}

theorem before_iff : a.before b = true ↔
    a.deadline < b.deadline ∨ a.deadline = b.deadline ∧ a.generation < b.generation := by
  simp [before]

theorem not_before_self (a : TimerEntry α) : ¬ a.before a = true := by
  rw [before_iff]
  omega

/-- What goes no later than one entry goes no later than what follows that one. -/
theorem not_before_trans (ab : ¬ b.before a = true) (bc : ¬ c.before b = true) :
    ¬ c.before a = true := by
  rw [before_iff] at *
  omega

theorem not_before_of_before (h : a.before b = true) : ¬ b.before a = true := by
  rw [before_iff] at *
  omega

theorem deadline_le (h : ¬ b.before a = true) : a.deadline ≤ b.deadline := by
  rw [before_iff] at h
  omega

/-- Of two entries with different numbers one goes before the other. -/
theorem before_of_not_before (h : ¬ b.before a = true) (apart : a.generation ≠ b.generation) :
    a.before b = true := by
  rw [before_iff] at *
  omega

end TimerEntry

namespace TimerQueue

variable {now : Nat} {entries rest batch left : List (TimerEntry α)} {e : TimerEntry α}

/-! ## Heaps -/

/-- A heap takes out an entry that no other goes before. -/
structure Pops (entries : List (TimerEntry α)) (e : TimerEntry α)
    (rest : List (TimerEntry α)) : Prop where
  perm : entries.Perm (e :: rest)
  first : ∀ x ∈ rest, ¬ x.before e = true

/-- A heap is popped as long as the entry that it would take out is due. -/
inductive Drains (now : Nat) :
    List (TimerEntry α) → List (TimerEntry α) → List (TimerEntry α) → Prop
  | empty : Drains now [] [] []
  | early {entries rest : List (TimerEntry α)} {e : TimerEntry α} (pops : Pops entries e rest)
      (later : now < e.deadline) : Drains now entries [] entries
  | pop {entries rest batch left : List (TimerEntry α)} {e : TimerEntry α}
      (pops : Pops entries e rest) (due : e.deadline ≤ now) (more : Drains now rest batch left) :
    Drains now entries (e :: batch) left

theorem Pops.not_before (pops : Pops entries e rest) {x : TimerEntry α} (mem : x ∈ entries) :
    ¬ x.before e = true := by
  rcases List.mem_cons.1 (pops.perm.mem_iff.1 mem) with rfl | inside
  · exact x.not_before_self
  · exact pops.first x inside

namespace Drains

theorem perm (h : Drains now entries batch left) : entries.Perm (batch ++ left) := by
  induction h with
  | empty => exact .refl []
  | early _ _ => exact .refl _
  | pop pops _ _ ih => exact pops.perm.trans (ih.cons _)

theorem due (h : Drains now entries batch left) (mem : e ∈ batch) : e.deadline ≤ now := by
  induction h with
  | empty => cases mem
  | early _ _ => cases mem
  | pop _ due _ ih =>
    rcases List.mem_cons.1 mem with rfl | inside
    · exact due
    · exact ih inside

theorem later (h : Drains now entries batch left) (mem : e ∈ left) : now < e.deadline := by
  induction h with
  | empty => cases mem
  | early pops later =>
    exact Nat.lt_of_lt_of_le later (TimerEntry.deadline_le (pops.not_before mem))
  | pop _ _ _ ih => exact ih mem

/-- No entry comes out before one that goes before it. -/
theorem sorted (h : Drains now entries batch left) :
    batch.Pairwise fun a b => ¬ b.before a = true := by
  induction h with
  | empty => exact .nil
  | early _ _ => exact .nil
  | pop pops _ more ih =>
    refine List.pairwise_cons.2 ⟨fun x mem => pops.first x ?_, ih⟩
    exact more.perm.mem_iff.2 (List.mem_append_left _ mem)

/-- The entries that come out are those that are due. -/
theorem mem_batch_iff (h : Drains now entries batch left) :
    e ∈ batch ↔ e ∈ entries ∧ e.deadline ≤ now := by
  rw [h.perm.mem_iff, List.mem_append]
  constructor
  · exact fun mem => ⟨Or.inl mem, h.due mem⟩
  · rintro ⟨mem | mem, due⟩
    · exact mem
    · have := h.later mem
      omega

theorem mem_left_iff (h : Drains now entries batch left) :
    e ∈ left ↔ e ∈ entries ∧ now < e.deadline := by
  rw [h.perm.mem_iff, List.mem_append]
  constructor
  · exact fun mem => ⟨Or.inr mem, h.later mem⟩
  · rintro ⟨mem | mem, early⟩
    · have := h.due mem
      omega
    · exact mem

/-- Entries with different numbers are split into such entries. -/
theorem nodup (h : Drains now entries batch left)
    (nodup : (entries.map TimerEntry.generation).Nodup) :
    (batch.map TimerEntry.generation).Nodup ∧ (left.map TimerEntry.generation).Nodup := by
  have apart := (h.perm.map TimerEntry.generation).nodup_iff.1 nodup
  rw [List.map_append] at apart
  exact ⟨(List.nodup_append.1 apart).1, (List.nodup_append.1 apart).2.1⟩

end Drains

/-! ## The queue as a heap -/

theorem extract_perm (a : TimerEntry α) (rest : List (TimerEntry α)) :
    (a :: rest).Perm ((extract a rest).1 :: (extract a rest).2) := by
  induction rest generalizing a with
  | nil => exact .refl _
  | cons b rest ih =>
    unfold extract
    split
    · exact ((ih b).cons a).trans (.swap _ _ _)
    · exact (List.Perm.swap b a rest).trans (((ih a).cons b).trans (.swap _ _ _))

/-- Nothing goes before what is taken out, not even the entry that the search began with. -/
theorem not_before_extract (a : TimerEntry α) (rest : List (TimerEntry α)) :
    ¬ a.before (extract a rest).1 = true ∧
      ∀ x ∈ (extract a rest).2, ¬ x.before (extract a rest).1 = true := by
  induction rest generalizing a with
  | nil => exact ⟨a.not_before_self, by simp [extract]⟩
  | cons b rest ih =>
    unfold extract
    split
    · rename_i before
      obtain ⟨first, others⟩ := ih b
      have here := TimerEntry.not_before_trans first (TimerEntry.not_before_of_before before)
      exact ⟨here, List.forall_mem_cons.2 ⟨here, others⟩⟩
    · rename_i notBefore
      obtain ⟨first, others⟩ := ih a
      exact ⟨first, List.forall_mem_cons.2 ⟨TimerEntry.not_before_trans first notBefore, others⟩⟩

theorem pops_extract (a : TimerEntry α) (rest : List (TimerEntry α)) :
    Pops (a :: rest) (extract a rest).1 (extract a rest).2 :=
  ⟨extract_perm a rest, (not_before_extract a rest).2⟩

theorem drains_splitDue (now : Nat) (entries : List (TimerEntry α)) :
    Drains now entries (splitDue now entries).1 (splitDue now entries).2 := by
  fun_induction splitDue now entries with
  | case1 => exact .empty
  | case2 a rest next due later ih => exact .pop (pops_extract a rest) due ih
  | case3 a rest next early => exact .early (pops_extract a rest) (Nat.lt_of_not_le early)

end TimerQueue

/-! ## Calls -/

inductive TimerCall (α : Type) where
  | insert (deadline : Nat) (payload : α)
  | popExpired (now : Nat)
  deriving DecidableEq

def TimerCall.isInsert : TimerCall α → Bool
  | .insert .. => true
  | .popExpired _ => false

namespace TimerQueue

/-- What a call gives back, and the queue after it.  An insertion gives nothing back. -/
def make (q : TimerQueue α) : TimerCall α → List (TimerEntry α) × TimerQueue α
  | .insert deadline payload => ([], q.insert deadline payload)
  | .popExpired now => q.popExpired now

/-- Makes the calls in order. -/
def run (q : TimerQueue α) : List (TimerCall α) → List (List (TimerEntry α)) × TimerQueue α
  | [] => ([], q)
  | call :: calls =>
    let made := q.make call
    let later := made.2.run calls
    (made.1 :: later.1, later.2)

/-- A call on whatever heap holds the entries. -/
inductive Makes : TimerQueue α → TimerCall α → List (TimerEntry α) → TimerQueue α → Prop
  | insert {q : TimerQueue α} {deadline : Nat} {payload : α} :
    Makes q (.insert deadline payload) [] (q.insert deadline payload)
  | popExpired {q : TimerQueue α} {now : Nat} {batch left : List (TimerEntry α)}
      (drains : Drains now q.entries batch left) :
    Makes q (.popExpired now) batch { q with entries := left }

/-- Calls in order, each with what it gives back. -/
inductive Runs :
    TimerQueue α → List (TimerCall α) → List (List (TimerEntry α)) → TimerQueue α → Prop
  | nil {q : TimerQueue α} : Runs q [] [] q
  | cons {q q' q'' : TimerQueue α} {call : TimerCall α} {calls : List (TimerCall α)}
      {batch : List (TimerEntry α)} {batches : List (List (TimerEntry α))}
      (makes : Makes q call batch q') (more : Runs q' calls batches q'') :
    Runs q (call :: calls) (batch :: batches) q''

theorem makes_make (q : TimerQueue α) (call : TimerCall α) :
    Makes q call (q.make call).1 (q.make call).2 := by
  cases call with
  | insert deadline payload => exact .insert
  | popExpired now => exact .popExpired (drains_splitDue now q.entries)

theorem runs_run (q : TimerQueue α) (calls : List (TimerCall α)) :
    Runs q calls (q.run calls).1 (q.run calls).2 := by
  induction calls generalizing q with
  | nil => exact .nil
  | cons call calls ih => exact .cons (makes_make q call) (ih _)

/-! ## What the calls say -/

/-- The entry that a call inserts, numbered by the insertions before it. -/
structure Inserted (calls : List (TimerCall α)) (i : Nat) (e : TimerEntry α) : Prop where
  call : calls[i]? = some (.insert e.deadline e.payload)
  generation : e.generation = (calls.take i).countP TimerCall.isInsert

/-- No later call is made when the deadline has come. -/
def Undue (calls : List (TimerCall α)) (i deadline : Nat) : Prop :=
  ∀ k now, i < k → calls[k]? = some (.popExpired now) → now < deadline

/-- The first later call that is made when the deadline has come. -/
structure FirstDue (calls : List (TimerCall α)) (i deadline j : Nat) : Prop where
  after : i < j
  due : ∃ now, calls[j]? = some (.popExpired now) ∧ deadline ≤ now
  first : ∀ k now, i < k → k < j → calls[k]? = some (.popExpired now) → now < deadline

/-- An entry was inserted and is not due at any later call. -/
def Pending (calls : List (TimerCall α)) (e : TimerEntry α) : Prop :=
  ∃ i, Inserted calls i e ∧ Undue calls i e.deadline

/-- What calls on an empty queue give back, and the queue after them, if every entry comes out
once, not early and in order. -/
structure Fires (calls : List (TimerCall α)) (batches : List (List (TimerEntry α)))
    (q : TimerQueue α) : Prop where
  length : batches.length = calls.length
  inserted : ∀ batch ∈ batches, ∀ e ∈ batch, ∃ i, Inserted calls i e
  /-- An entry is in the batch of the first later call at which it is due, and in no other. -/
  first : ∀ i e, Inserted calls i e → ∀ j batch, batches[j]? = some batch →
    (e ∈ batch ↔ FirstDue calls i e.deadline j)
  sorted : ∀ batch ∈ batches, batch.Pairwise fun a b => a.before b = true
  left : ∀ e, e ∈ q.entries ↔ Pending calls e
  unreturned : ∀ e, e ∈ q.entries ↔
    (∃ i, Inserted calls i e) ∧ ∀ batch ∈ batches, e ∉ batch
  nodup : q.entries.Nodup

variable {past calls : List (TimerCall α)} {i j k : Nat} {e : TimerEntry α}

theorem Inserted.lt (h : Inserted calls i e) : i < calls.length :=
  (List.getElem?_eq_some_iff.1 h.call).1

/-- An insertion counts for all that follow. -/
theorem Inserted.generation_lt (h : Inserted calls i e) (lt : i < k) :
    e.generation < (calls.take k).countP TimerCall.isInsert := by
  have counted : (calls.take (i + 1)).countP TimerCall.isInsert = e.generation + 1 := by
    rw [List.take_add_one, h.call, List.countP_append, ← h.generation]
    rfl
  have fewer : (calls.take (i + 1)).Sublist (calls.take k) :=
    (List.take_prefix_take_left (by omega)).sublist
  have := fewer.countP_le (p := TimerCall.isInsert)
  omega

/-- An entry is inserted by one call only. -/
theorem Inserted.unique (h : Inserted calls i e) (h' : Inserted calls k e) : i = k := by
  rcases Nat.lt_trichotomy i k with lt | same | lt
  · have := h.generation_lt lt
    rw [← h'.generation] at this
    omega
  · exact same
  · have := h'.generation_lt lt
    rw [← h.generation] at this
    omega

theorem inserted_append (lt : i < past.length) :
    Inserted (past ++ calls) i e ↔ Inserted past i e := by
  have takes : (past ++ calls).take i = past.take i := List.take_append_of_le_length (by omega)
  constructor
  · rintro ⟨call, generation⟩
    rw [List.getElem?_append_left lt] at call
    exact ⟨call, takes ▸ generation⟩
  · rintro ⟨call, generation⟩
    rw [← List.getElem?_append_left lt] at call
    exact ⟨call, takes ▸ generation⟩

theorem lt_length_snoc {c : TimerCall α} (lt : i < (past ++ [c]).length) :
    i < past.length ∨ i = past.length := by
  rw [List.length_append, List.length_singleton] at lt
  omega

/-- A call at the end comes after the entries of all others. -/
theorem undue_snoc {c : TimerCall α} {d : Nat} (lt : i < past.length) :
    Undue (past ++ [c]) i d ↔ Undue past i d ∧ ∀ now, c = .popExpired now → now < d := by
  constructor
  · intro undue
    refine ⟨fun k now after call => ?_, fun now same => ?_⟩
    · have inside := (List.getElem?_eq_some_iff.1 call).1
      exact undue k now after (by rw [List.getElem?_append_left inside, call])
    · exact undue past.length now lt (by rw [List.getElem?_concat_length, same])
  · rintro ⟨undue, last⟩ k now after call
    rcases lt_length_snoc (List.getElem?_eq_some_iff.1 call).1 with inside | rfl
    · rw [List.getElem?_append_left inside] at call
      exact undue k now after call
    · rw [List.getElem?_concat_length, Option.some.injEq] at call
      exact last now call

/-- What a call changes: an entry that is due no longer waits, and one that is inserted does. -/
theorem pending_snoc {c : TimerCall α} : Pending (past ++ [c]) e ↔
    Pending past e ∧ (∀ now, c = .popExpired now → now < e.deadline) ∨
      c = .insert e.deadline e.payload ∧ e.generation = past.countP TimerCall.isInsert := by
  constructor
  · rintro ⟨i, inserted, undue⟩
    rcases lt_length_snoc inserted.lt with lt | rfl
    · rw [undue_snoc lt] at undue
      exact Or.inl ⟨⟨i, (inserted_append lt).1 inserted, undue.1⟩, undue.2⟩
    · obtain ⟨call, generation⟩ := inserted
      rw [List.getElem?_concat_length, Option.some.injEq] at call
      rw [List.take_left] at generation
      exact Or.inr ⟨call, generation⟩
  · rintro (⟨⟨i, inserted, undue⟩, later⟩ | ⟨rfl, generation⟩)
    · exact ⟨i, (inserted_append inserted.lt).2 inserted, (undue_snoc inserted.lt).2 ⟨undue, later⟩⟩
    · refine ⟨past.length, ⟨List.getElem?_concat_length, ?_⟩, fun k now after call => ?_⟩
      · rw [List.take_left, generation]
      · rcases lt_length_snoc (List.getElem?_eq_some_iff.1 call).1 with lt | rfl <;> omega

/-! ## The invariant -/

/-- What a queue holds after some calls. -/
structure Holds (calls : List (TimerCall α)) (q : TimerQueue α) : Prop where
  next : q.nextGeneration = calls.countP TimerCall.isInsert
  mem_iff : ∀ e, e ∈ q.entries ↔ Pending calls e
  nodup : (q.entries.map TimerEntry.generation).Nodup

theorem holds_empty : Holds [] (.empty : TimerQueue α) where
  next := rfl
  mem_iff e := by
    constructor
    · intro mem
      cases mem
    · rintro ⟨i, inserted, -⟩
      cases inserted.lt
  nodup := .nil

variable {q q' : TimerQueue α} {c : TimerCall α} {batch : List (TimerEntry α)}

theorem eq_entry_iff {deadline generation : Nat} {payload : α} :
    e = { deadline, generation, payload } ↔
      TimerCall.insert deadline payload = .insert e.deadline e.payload ∧
        e.generation = generation := by
  constructor
  · rintro rfl
    exact ⟨rfl, rfl⟩
  · rintro ⟨call, rfl⟩
    cases e
    cases call
    rfl

theorem Holds.generation_lt (h : Holds past q) (mem : e ∈ q.entries) :
    e.generation < q.nextGeneration := by
  obtain ⟨i, inserted, -⟩ := (h.mem_iff e).1 mem
  rw [h.next, ← List.take_length (l := past)]
  exact inserted.generation_lt inserted.lt

/-- Every call keeps the invariant. -/
theorem Holds.step (h : Holds past q) (makes : Makes q c batch q') : Holds (past ++ [c]) q' := by
  cases makes with
  | @insert deadline payload =>
    refine ⟨?_, fun e => ?_, List.nodup_cons.2 ⟨fun mem => ?_, h.nodup⟩⟩
    · rw [List.countP_append, ← h.next]
      rfl
    · unfold TimerQueue.insert
      rw [List.mem_cons, h.mem_iff e, pending_snoc, ← h.next, ← eq_entry_iff]
      simp [or_comm]
    · obtain ⟨e, inside, same⟩ := List.mem_map.1 mem
      have lt := h.generation_lt inside
      exact Nat.lt_irrefl _ (same ▸ lt)
  | popExpired drains =>
    refine ⟨?_, fun e => ?_, ?_⟩
    · rw [List.countP_append, ← h.next]
      rfl
    · rw [drains.mem_left_iff, h.mem_iff e, pending_snoc]
      simp
    · exact (drains.nodup h.nodup).2

/-! ## What a call returns -/

/-- At the time of a call the queue holds what waits after the calls before it. -/
theorem firstDue_iff (inserted : Inserted past i e) :
    FirstDue (past ++ c :: calls) i e.deadline past.length ↔
      Undue past i e.deadline ∧ ∃ now, c = .popExpired now ∧ e.deadline ≤ now := by
  have before : ∀ {k : Nat}, k < past.length → (past ++ c :: calls)[k]? = past[k]? :=
    fun lt => List.getElem?_append_left lt
  have here : (past ++ c :: calls)[past.length]? = some c := by simp
  constructor
  · rintro ⟨-, ⟨now, call, due⟩, first⟩
    refine ⟨fun k now after call => ?_, now, Option.some.inj (here.symm.trans call), due⟩
    have lt := (List.getElem?_eq_some_iff.1 call).1
    exact first k now after lt ((before lt).trans call)
  · rintro ⟨undue, now, rfl, due⟩
    refine ⟨inserted.lt, ⟨now, here, due⟩, fun k now after lt call => ?_⟩
    exact undue k now after ((before lt).symm.trans call)

/-- A call returns the entries for which it is the first due one, in order. -/
structure Returns (calls : List (TimerCall α)) (j : Nat) (batch : List (TimerEntry α)) : Prop where
  sorted : batch.Pairwise fun a b => a.before b = true
  mem_iff : ∀ e, e ∈ batch ↔ ∃ i, Inserted calls i e ∧ FirstDue calls i e.deadline j

theorem Holds.returns (h : Holds past q) (makes : Makes q c batch q') :
    Returns (past ++ c :: calls) past.length batch := by
  have first : ∀ e, (∃ i, Inserted (past ++ c :: calls) i e ∧
        FirstDue (past ++ c :: calls) i e.deadline past.length) ↔
      e ∈ q.entries ∧ ∃ now, c = .popExpired now ∧ e.deadline ≤ now := by
    intro e
    rw [h.mem_iff e]
    constructor
    · rintro ⟨i, inserted, due⟩
      have old := (inserted_append due.after).1 inserted
      obtain ⟨undue, called⟩ := (firstDue_iff old).1 due
      exact ⟨⟨i, old, undue⟩, called⟩
    · rintro ⟨⟨i, inserted, undue⟩, called⟩
      exact ⟨i, (inserted_append inserted.lt).2 inserted, (firstDue_iff inserted).2 ⟨undue, called⟩⟩
  cases makes with
  | insert =>
    refine ⟨.nil, fun e => ?_⟩
    rw [first]
    simp
  | popExpired drains =>
    refine ⟨?_, fun e => ?_⟩
    · have apart := List.pairwise_map.1 (drains.nodup h.nodup).1
      exact drains.sorted.imp₂ (fun _ _ => TimerEntry.before_of_not_before) apart
    · rw [first, drains.mem_batch_iff]
      simp

theorem Runs.spec {batches : List (List (TimerEntry α))} (run : Runs q calls batches q')
    (h : Holds past q) : Holds (past ++ calls) q' ∧ batches.length = calls.length ∧
      ∀ j batch, batches[j]? = some batch → Returns (past ++ calls) (past.length + j) batch := by
  induction run generalizing past with
  | nil => exact ⟨by simpa using h, rfl, by simp⟩
  | cons makes _ ih =>
    obtain ⟨holds, length, returns⟩ := ih (h.step makes)
    rw [List.append_assoc, List.singleton_append] at holds returns
    refine ⟨holds, congrArg Nat.succ length, fun j batch found => ?_⟩
    cases j with
    | zero =>
      cases found
      exact h.returns makes
    | succ j =>
      have later := returns j batch found
      rwa [List.length_append, List.length_singleton, Nat.add_assoc, Nat.add_comm 1] at later

/-! ## All calls -/

theorem exists_firstDue {d : Nat} (due : ¬ Undue calls i d) : ∃ j, FirstDue calls i d j := by
  have some : ∃ k, i < k ∧ ∃ now, calls[k]? = some (.popExpired now) ∧ d ≤ now := by
    by_contra none
    refine due fun k now after call => Nat.lt_of_not_le fun le => ?_
    exact none ⟨k, after, now, call, le⟩
  classical
  obtain ⟨after, reached⟩ := Nat.find_spec some
  refine ⟨Nat.find some, after, reached, fun k now after lt call => Nat.lt_of_not_le fun le => ?_⟩
  exact Nat.find_min some lt ⟨after, now, call, le⟩

/-- Entries come out once, not early and in order, whatever heap holds them; the queue of this
library is one that can. -/
theorem fires_once_in_order (calls : List (TimerCall α)) :
    Runs .empty calls (TimerQueue.empty.run calls).1 (TimerQueue.empty.run calls).2 ∧
      ∀ batches q, Runs .empty calls batches q → Fires calls batches q := by
  refine ⟨runs_run .empty calls, fun batches q run => ?_⟩
  obtain ⟨holds, length, returns⟩ := run.spec holds_empty
  simp only [List.nil_append, List.length_nil, Nat.zero_add] at holds returns
  have returned : ∀ batch ∈ batches, ∃ j, Returns calls j batch := fun batch mem =>
    (List.getElem?_of_mem mem).imp fun j found => returns j batch found
  refine ⟨length, ?_, ?_, fun batch mem => ?_, holds.mem_iff, fun e => ?_, holds.nodup.of_map _⟩
  · intro batch mem e inside
    obtain ⟨j, returns⟩ := returned batch mem
    obtain ⟨i, inserted, -⟩ := (returns.mem_iff e).1 inside
    exact ⟨i, inserted⟩
  · intro i e inserted j batch found
    rw [(returns j batch found).mem_iff]
    constructor
    · rintro ⟨k, again, due⟩
      rwa [inserted.unique again]
    · exact fun due => ⟨i, inserted, due⟩
  · obtain ⟨j, returns⟩ := returned batch mem
    exact returns.sorted
  · rw [holds.mem_iff]
    constructor
    · rintro ⟨i, inserted, undue⟩
      refine ⟨⟨i, inserted⟩, fun batch mem inside => ?_⟩
      obtain ⟨j, returns⟩ := returned batch mem
      obtain ⟨k, again, after, ⟨now, call, due⟩, -⟩ := (returns.mem_iff e).1 inside
      have := undue j now (inserted.unique again ▸ after) call
      omega
    · rintro ⟨⟨i, inserted⟩, absent⟩
      refine ⟨i, inserted, ?_⟩
      by_contra due
      obtain ⟨j, first⟩ := exists_firstDue due
      obtain ⟨now, call, -⟩ := first.due
      have lt : j < batches.length := length ▸ (List.getElem?_eq_some_iff.1 call).1
      have found := List.getElem?_eq_getElem lt
      exact absent _ (List.getElem_mem lt) (((returns j _ found).mem_iff e).2 ⟨i, inserted, first⟩)

/-- Calls with equal, past and unordered deadlines, at times that go back. -/
def mixedCalls : List (TimerCall Char) :=
  [.insert 100 'b', .insert 50 'a', .insert 150 'c', .insert 100 'd', .popExpired 60,
    .popExpired 100, .insert 20 'e', .popExpired 10, .popExpired 100]

theorem fires_once_in_order_mixed :
    Runs .empty mixedCalls
        [[], [], [], [], [⟨50, 1, 'a'⟩], [⟨100, 0, 'b'⟩, ⟨100, 3, 'd'⟩], [], [], [⟨20, 4, 'e'⟩]]
        ⟨[⟨150, 2, 'c'⟩], 5⟩ ∧
      Fires mixedCalls
        [[], [], [], [], [⟨50, 1, 'a'⟩], [⟨100, 0, 'b'⟩, ⟨100, 3, 'd'⟩], [], [], [⟨20, 4, 'e'⟩]]
        ⟨[⟨150, 2, 'c'⟩], 5⟩ := by
  obtain ⟨runs, fires⟩ := fires_once_in_order mixedCalls
  have outcome : TimerQueue.empty.run mixedCalls =
      ([[], [], [], [], [⟨50, 1, 'a'⟩], [⟨100, 0, 'b'⟩, ⟨100, 3, 'd'⟩], [], [], [⟨20, 4, 'e'⟩]],
        ⟨[⟨150, 2, 'c'⟩], 5⟩) := by
    decide +kernel
  rw [outcome] at runs
  exact ⟨runs, fires _ _ runs⟩

end TimerQueue

end Resumable
