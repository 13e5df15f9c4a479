import Mathlib.Data.Finset.Image
import Mathlib.Logic.Relation
import Resumable.Proofs.Ascending
import Resumable.Proofs.Procedure.Liveness
import Resumable.Proofs.Search
import Resumable.Proofs.Weave.Numbering

/-!
# The states that a walk finds

`Procedure.Passes` are the edges of a walk: from a block to its handler and, unless a
suspending call ends the block, to its successors.  `Procedure.CallReachable` are the
states of the suspending calls that these edges lead to.

* `Closing` is the invariant of a walk: the edges from the blocks that were seen lead to
  blocks that were seen or are still to be visited, and nothing else is visited.
  `walk_spec` carries it to the end.  The edges that are left are counted as for a
  search, by `openEdges`.
* `mem_reachableStates` is the result for a block, and `Assembled.record_cases`
  that for the records of a woven procedure.
-/

namespace Resumable

theorem StateId.index_injective : Function.Injective StateId.index := by
  intro a b same
  cases a
  cases b
  exact congrArg StateId.mk (UInt32.toNat_inj.1 same)

theorem BlockId.ofIndex_index (id : BlockId) : BlockId.ofIndex id.index = id := by
  unfold BlockId.ofIndex BlockId.index
  rw [UInt32.ofNat_toNat]

namespace Procedure

/-! ## The edges of a walk -/

/-- Control goes from a block to another one, and not because a suspending call has
returned. -/
inductive Passes (p : Procedure) : BlockId → BlockId → Prop
  | normal {id next : BlockId} {b : Block} (found : p.block? id = some b)
      (goesOn : b.suspendState? = none) (edge : next ∈ b.terminator.successors) :
    Passes p id next
  | handler {id : BlockId} {b : Block} {h : Handler} (found : p.block? id = some b)
      (raises : b.handler = some h) : Passes p id h.target

/-- The state of a suspending call to which control comes from a block before any
suspending call returns. -/
def CallReachable (p : Procedure) (start : BlockId) (state : StateId) : Prop :=
  ∃ id b, Relation.ReflTransGen p.Passes start id ∧ p.block? id = some b ∧
    b.suspendState? = some state

variable {p : Procedure}

theorem mem_block_walkEdges {b : Block} {next : BlockId} :
    next ∈ b.walkEdges ↔ (∃ h, b.handler = some h ∧ h.target = next) ∨
      b.suspendState? = none ∧ next ∈ b.terminator.successors := by
  unfold Block.walkEdges Block.suspendState?
  rw [List.mem_append]
  refine or_congr (by simp [eq_comm]) ?_
  cases b.terminator <;> simp

theorem mem_walkEdges {id next : BlockId} : next ∈ p.walkEdges id ↔ p.Passes id next := by
  unfold walkEdges
  constructor
  · intro mem
    cases found : p.block? id with
    | none => simp [found] at mem
    | some b =>
      rw [found] at mem
      rcases mem_block_walkEdges.1 mem with ⟨h, raises, rfl⟩ | ⟨goesOn, edge⟩
      · exact .handler found raises
      · exact .normal found goesOn edge
  · intro passes
    cases passes with
    | normal found goesOn edge =>
      rw [found]
      exact mem_block_walkEdges.2 (Or.inr ⟨goesOn, edge⟩)
    | handler found raises =>
      rw [found]
      exact mem_block_walkEdges.2 (Or.inl ⟨_, raises, rfl⟩)

/-! ## Fuel -/

/-- What a walk sees at a block. -/
def walkLook (p : Procedure) (id : BlockId) : Search BlockId Unit :=
  { children := p.walkEdges id, own := none }

/-- The numbers at which there are blocks. -/
def blockIds (p : Procedure) : Finset BlockId :=
  (Finset.range p.blocks.length).image BlockId.ofIndex

theorem mem_blockIds {id : BlockId} (edges : p.walkEdges id ≠ []) : id ∈ p.blockIds := by
  unfold walkEdges block? at edges
  have lt : id.index < p.blocks.length := by
    by_contra beyond
    rw [List.getElem?_eq_none (by omega)] at edges
    exact edges rfl
  exact Finset.mem_image.2 ⟨id.index, Finset.mem_range.2 lt, BlockId.ofIndex_index id⟩

/-- A walk has no more edges than its bound counts. -/
theorem sum_walkEdges_le (p : Procedure) :
    ∑ id ∈ p.blockIds, (p.walkEdges id).length ≤ (p.blocks.flatMap Block.walkEdges).length := by
  let count (i : Nat) : Nat := (p.blocks[i]?.map fun b => b.walkEdges.length).getD 0
  have own : ∀ id, (p.walkEdges id).length = count id.index := by
    intro id
    unfold walkEdges block?
    cases here : p.blocks[id.index]? <;> simp [count, here]
  have total : ∀ blocks : List Block,
      ∑ i ∈ Finset.range blocks.length, (blocks[i]?.map fun b => b.walkEdges.length).getD 0
        = (blocks.flatMap Block.walkEdges).length := by
    intro blocks
    induction blocks with
    | nil => rfl
    | cons b blocks ih =>
      rw [List.length_cons, Finset.sum_range_succ', List.flatMap_cons, List.length_append, ← ih]
      simp [Nat.add_comm]
  have inside : p.blockIds.image BlockId.index ⊆ Finset.range p.blocks.length := by
    intro i mem
    obtain ⟨id, listed, rfl⟩ := Finset.mem_image.1 mem
    obtain ⟨n, lt, rfl⟩ := Finset.mem_image.1 listed
    have small : (BlockId.ofIndex n).index ≤ n := by
      unfold BlockId.ofIndex BlockId.index
      rw [UInt32.toNat_ofNat']
      exact Nat.mod_le _ _
    rw [Finset.mem_range] at lt ⊢
    omega
  calc ∑ id ∈ p.blockIds, (p.walkEdges id).length
      = ∑ id ∈ p.blockIds, count id.index := Finset.sum_congr rfl fun id _ => own id
    _ = ∑ i ∈ p.blockIds.image BlockId.index, count i :=
        (Finset.sum_image BlockId.index_injective.injOn).symm
    _ ≤ ∑ i ∈ Finset.range p.blocks.length, count i := Finset.sum_le_sum_of_subset inside
    _ = (p.blocks.flatMap Block.walkEdges).length := total p.blocks

/-! ## Walks -/

/-- What holds while a walk is under way: the edges from blocks that were seen are
accounted for. -/
def Closing (p : Procedure) (todo seen : List BlockId) : Prop :=
  ∀ id ∈ seen, ∀ next, p.Passes id next → next ∈ seen ∨ next ∈ todo

theorem Closing.skip {id : BlockId} {todo seen : List BlockId}
    (h : p.Closing (id :: todo) seen) (marked : id ∈ seen) : p.Closing todo seen := by
  intro x mem next passes
  rcases h x mem next passes with here | later
  · exact Or.inl here
  · rcases List.mem_cons.1 later with rfl | later
    · exact Or.inl marked
    · exact Or.inr later

theorem Closing.visit {id : BlockId} {todo seen : List BlockId}
    (h : p.Closing (id :: todo) seen) :
    p.Closing (todo ++ p.walkEdges id) (id :: seen) := by
  intro x mem next passes
  rcases List.mem_cons.1 mem with rfl | mem
  · exact Or.inr (List.mem_append_right _ (mem_walkEdges.2 passes))
  · rcases h x mem next passes with here | later
    · exact Or.inl (List.mem_cons_of_mem _ here)
    · rcases List.mem_cons.1 later with rfl | later
      · exact Or.inl List.mem_cons_self
      · exact Or.inr (List.mem_append_left _ later)

/-- With fuel for every edge, a walk sees all blocks that its edges lead to, and no
others. -/
theorem walk_spec {fuel : Nat} {todo seen : List BlockId} (closing : p.Closing todo seen)
    (bound : openEdges p.walkLook p.blockIds seen + todo.length ≤ fuel) :
    (∀ id, id ∈ seen ∨ id ∈ todo → id ∈ p.walk fuel todo seen) ∧
      (∀ id ∈ p.walk fuel todo seen, id ∈ seen ∨
        ∃ start ∈ todo, Relation.ReflTransGen p.Passes start id) ∧
      p.Closing [] (p.walk fuel todo seen) := by
  induction fuel generalizing todo seen with
  | zero =>
    have empty : todo = [] := List.eq_nil_of_length_eq_zero (by omega)
    subst empty
    exact ⟨fun id mem => by simpa [walk] using mem, fun id mem => Or.inl mem, closing⟩
  | succ fuel ih =>
    cases todo with
    | nil => exact ⟨fun id mem => by simpa [walk] using mem, fun id mem => Or.inl mem, closing⟩
    | cons id todo =>
      rw [List.length_cons] at bound
      rw [walk]
      split
      · rename_i marked
        obtain ⟨all, only, closed⟩ := ih (closing.skip marked) (by omega)
        refine ⟨fun x mem => all x ?_, fun x mem => ?_, closed⟩
        · rcases mem with mem | mem
          · exact Or.inl mem
          · rcases List.mem_cons.1 mem with rfl | mem
            · exact Or.inl marked
            · exact Or.inr mem
        · exact (only x mem).imp_right fun ⟨start, listed, way⟩ =>
            ⟨start, List.mem_cons_of_mem _ listed, way⟩
      · rename_i fresh
        have edges : openEdges p.walkLook p.blockIds (id :: seen) + (p.walkEdges id).length
            = openEdges p.walkLook p.blockIds seen := openEdges_cons mem_blockIds fresh
        obtain ⟨all, only, closed⟩ := ih closing.visit (by rw [List.length_append]; omega)
        refine ⟨fun x mem => all x ?_, fun x mem => ?_, closed⟩
        · rcases mem with mem | mem
          · exact Or.inl (List.mem_cons_of_mem _ mem)
          · rcases List.mem_cons.1 mem with rfl | mem
            · exact Or.inl List.mem_cons_self
            · exact Or.inr (List.mem_append_left _ mem)
        · rcases only x mem with mem | ⟨start, listed, way⟩
          · rcases List.mem_cons.1 mem with rfl | mem
            · exact Or.inr ⟨x, List.mem_cons_self, .refl⟩
            · exact Or.inl mem
          · rcases List.mem_append.1 listed with listed | edge
            · exact Or.inr ⟨start, List.mem_cons_of_mem _ listed, way⟩
            · exact Or.inr ⟨id, List.mem_cons_self, .head (mem_walkEdges.1 edge) way⟩

/-- A walk from a block meets exactly the blocks that its edges lead to. -/
theorem mem_walk_iff {start id : BlockId} :
    id ∈ p.walk p.walkBound [start] [] ↔ Relation.ReflTransGen p.Passes start id := by
  have bound : openEdges p.walkLook p.blockIds [] + [start].length ≤ p.walkBound := by
    have edges := p.sum_walkEdges_le
    unfold openEdges walkBound walkLook
    simpa using Nat.le_succ_of_le (Nat.succ_le_succ edges)
  obtain ⟨all, only, closed⟩ := walk_spec (fun _ mem => absurd mem List.not_mem_nil) bound
  constructor
  · intro mem
    rcases only id mem with mem | ⟨first, listed, way⟩
    · exact absurd mem List.not_mem_nil
    · rwa [List.mem_singleton.1 listed] at way
  · intro way
    induction way with
    | refl => exact all start (Or.inr List.mem_cons_self)
    | tail _ passes ih =>
      rcases closed _ ih _ passes with mem | mem
      · exact mem
      · exact absurd mem List.not_mem_nil

theorem mem_reachableStates {start : BlockId} {state : StateId} :
    state ∈ p.reachableStates start ↔ p.CallReachable start state := by
  unfold reachableStates CallReachable
  rw [Ascending.mem_ofList StateId.index_injective, List.mem_filterMap]
  constructor
  · rintro ⟨id, mem, here⟩
    obtain ⟨b, found, call⟩ := Option.bind_eq_some_iff.1 here
    exact ⟨id, b, mem_walk_iff.1 mem, found, call⟩
  · rintro ⟨id, b, way, found, call⟩
    exact ⟨id, mem_walk_iff.2 way, Option.bind_eq_some_iff.2 ⟨b, found, call⟩⟩

/-! ## The records of a woven procedure -/

theorem Passes.congr {q : Procedure} (same : p.blocks = q.blocks) {id next : BlockId}
    (h : p.Passes id next) : q.Passes id next := by
  have found : ∀ {id b}, p.block? id = some b → q.block? id = some b := by
    intro id b here
    unfold block? at here ⊢
    rwa [← same]
  cases h with
  | normal here goesOn edge => exact .normal (found here) goesOn edge
  | handler here raises => exact .handler (found here) raises

/-- What a walk finds depends on the blocks alone. -/
theorem CallReachable.congr {q : Procedure} (same : p.blocks = q.blocks) {start : BlockId}
    {state : StateId} (h : p.CallReachable start state) : q.CallReachable start state := by
  obtain ⟨id, b, way, found, call⟩ := h
  refine ⟨id, b, way.lift (fun x => x) (fun _ _ passes => Passes.congr same passes), ?_, call⟩
  unfold block? at found ⊢
  rwa [← same]

end Procedure

namespace Assembled

variable {p w : Procedure} {live : Liveness} {cut : Cut}

/-- The records are those of fresh entry and of the states of the cut.  Their successors
are what a walk from their block finds. -/
theorem record_cases (h : Assembled p live cut w) {st : ResumptionState} (mem : st ∈ w.states) :
    (st.id = StateId.entry ∧ st.block = p.entryBlock ∨
        ∃ s ∈ cut.states, st.id = s.id ∧ st.block = s.block) ∧
      st.successors.Pairwise (fun s t => s.index < t.index) ∧
      ∀ state, state ∈ st.successors ↔ w.CallReachable st.block state := by
  have form := h.form
  subst form
  obtain ⟨s, listed, rfl⟩ := List.mem_map.1 mem
  refine ⟨?_, Ascending.sorted_ofList _, fun state => ?_⟩
  · rcases List.mem_cons.1 listed with rfl | listed
    · exact Or.inl ⟨rfl, rfl⟩
    · exact Or.inr ⟨s, listed, rfl, rfl⟩
  · refine Procedure.mem_reachableStates.trans ⟨fun found => ?_, fun found => ?_⟩
    · refine Procedure.CallReachable.congr ?_ found
      rfl
    · refine Procedure.CallReachable.congr ?_ found
      rfl

end Assembled

end Resumable
