import Mathlib.Data.List.Range
import Mathlib.Data.List.Nodup
import Mathlib.Data.List.Perm.Subperm
import Mathlib.Tactic.Ring
import Resumable.Weave.Transform
import Resumable.Proofs.Ascending
import Resumable.Proofs.Keys
import Resumable.Proofs.Procedure.Validity
import Resumable.Proofs.Weave.Form

/-!
# The numbers of a woven procedure

A cut hands out block numbers and state numbers in ascending order.  Both kinds wrap
at 32 bits, but a procedure whose numbers wrap is not verified: its dispatcher gets a
low number, and the blocks that had the low numbers before stand in front of it, so
the entry is one of them.

Hence in a verified procedure every block stands at its number
(`Assembled.block?_id`), and every state leads to its own record and its own resume
block (`Assembled.state?_eq`, `Assembled.arm`).
-/

namespace Resumable

theorem BlockId.index_ofIndex {n : Nat} (lt : n < 2 ^ 32) : (BlockId.ofIndex n).index = n := by
  unfold BlockId.ofIndex BlockId.index
  rw [UInt32.toNat_ofNat']
  exact Nat.mod_eq_of_lt lt

theorem BlockId.index_lt (b : BlockId) : b.index < 2 ^ 32 := UInt32.toNat_lt _

theorem StateId.index_ofIndex {n : Nat} (lt : n < 2 ^ 32) : (StateId.ofIndex n).index = n := by
  unfold StateId.ofIndex StateId.index
  rw [UInt32.toNat_ofNat']
  exact Nat.mod_eq_of_lt lt

/-! ## What a cut hands out -/

/-- The blocks and states of a cut have the next numbers, `sites` states and twice as
many blocks. -/
structure Cut.Numbered (cut : Cut) (kept : List BlockId) (nextBlock nextState sites : Nat) :
    Prop where
  blocks : (cut.blocks.map Block.id).Perm
    (kept ++ (List.range' nextBlock (2 * sites)).map BlockId.ofIndex)
  states : cut.states.map ResumptionState.id =
    (List.range' nextState sites).map StateId.ofIndex
  nextBlock : cut.nextBlock = nextBlock + 2 * sites
  nextState : cut.nextState = nextState + sites

/-- The suspending calls of a cut are those of its states, and it has no dispatcher. -/
structure Cut.Undispatched (cut : Cut) : Prop where
  calls : (cut.blocks.filterMap fun b => b.terminator.suspension?).map Prod.fst =
    cut.states.map ResumptionState.id
  blocks : ∀ b ∈ cut.blocks, ∀ fresh arms, b.terminator ≠ .dispatch fresh arms

variable {p : Procedure} {live : Liveness}

/-- A cut at the first position of a list is a piece and a resume block in front of the
cut at the other positions. -/
theorem cutFrom_cons {b : Block} {id : BlockId} {start site : Nat} {sites : List Nat}
    {nextBlock nextState : Nat} {cut : Cut}
    (h : cutFrom p live b id start (site :: sites) nextBlock nextState = .ok cut) :
    ∃ dst func args more, b.statements[site]? = some (.call dst func args) ∧
      cutFrom p live b (BlockId.ofIndex nextBlock) (site + 1) sites (nextBlock + 2)
        (nextState + 1) = .ok more ∧
      cut = { more with
        blocks :=
          b.piece id ((b.statements.take site).drop start)
            (.suspendCall dst func args (StateId.ofIndex nextState) (live.saveSet b site dst)
              (BlockId.ofIndex nextBlock)) ::
          b.resumption (BlockId.ofIndex (nextBlock + 1)) (live.saveSet b site dst) dst
            (BlockId.ofIndex nextBlock) :: more.blocks
        states :=
          { id := StateId.ofIndex nextState, block := BlockId.ofIndex (nextBlock + 1)
            live := (live.saveSet b site dst).map p.slot, successors := [] } :: more.states } := by
  rw [cutFrom] at h
  split at h
  · rename_i dst func args call
    obtain ⟨more, rest, last⟩ := Except.bind_eq_ok_iff.1 h
    cases last
    exact ⟨dst, func, args, more, call, rest, rfl⟩
  · cases h

theorem cutFrom_numbered {b : Block} {id : BlockId} {start : Nat} {sites : List Nat}
    {nextBlock nextState : Nat} {cut : Cut}
    (h : cutFrom p live b id start sites nextBlock nextState = .ok cut) :
    cut.Numbered [id] nextBlock nextState sites.length := by
  induction sites generalizing id start nextBlock nextState cut with
  | nil =>
    rw [cutFrom] at h
    cases h
    exact ⟨by simp [Block.piece], by simp, rfl, rfl⟩
  | cons site sites ih =>
    obtain ⟨dst, func, args, more, -, rest, rfl⟩ := cutFrom_cons h
    obtain ⟨blocks, states, lastBlock, lastState⟩ := ih rest
    have two : 2 * (sites.length + 1) = 2 * sites.length + 1 + 1 := by ring
    constructor
    · rw [List.length_cons, two, List.range'_succ, List.range'_succ]
      exact ((blocks.cons _).trans (.swap _ _ _)).cons _
    · rw [List.map_cons, List.length_cons, states, List.range'_succ]
      rfl
    · rw [lastBlock, List.length_cons]
      ring
    · rw [lastState, List.length_cons]
      ring

theorem cutFrom_undispatched {b : Block} {id : BlockId} {start : Nat} {sites : List Nat}
    {nextBlock nextState : Nat} {cut : Cut} (plain : b.terminator.isResumption = false)
    (h : cutFrom p live b id start sites nextBlock nextState = .ok cut) : cut.Undispatched := by
  induction sites generalizing id start nextBlock nextState cut with
  | nil =>
    rw [cutFrom] at h
    cases h
    constructor
    · cases last : b.terminator with
      | suspendCall => simp [last, Terminator.isResumption] at plain
      | _ => simp [Block.piece, Terminator.suspension?]
    · intro c mem fresh arms last
      obtain rfl := List.mem_singleton.1 mem
      have last : b.terminator = .dispatch fresh arms := last
      simp [last, Terminator.isResumption] at plain
  | cons site sites ih =>
    obtain ⟨dst, func, args, more, -, rest, rfl⟩ := cutFrom_cons h
    obtain ⟨calls, blocks⟩ := ih rest
    constructor
    · exact congrArg (List.cons (StateId.ofIndex nextState)) calls
    · simp only [List.forall_mem_cons]
      exact ⟨by simp [Block.piece], by simp [Block.resumption, Block.piece], blocks⟩

/-- The positions at which the blocks of a list are cut. -/
def siteCount (blocks : List Block) : Nat :=
  (blocks.map fun b => (Ascending.ofList id b.suspendSites).length).sum

theorem cutBlocks_cons {b : Block} {rest : List Block} {nextBlock nextState : Nat} {cut : Cut}
    (h : cutBlocks p live (b :: rest) nextBlock nextState = .ok cut) :
    ∃ first more, cutBlock p live b nextBlock nextState = .ok first ∧
      cutBlocks p live rest first.nextBlock first.nextState = .ok more ∧
      cut = { more with
        blocks := first.blocks ++ more.blocks
        states := first.states ++ more.states } := by
  rw [cutBlocks] at h
  obtain ⟨first, head, h⟩ := Except.bind_eq_ok_iff.1 h
  obtain ⟨more, tail, h⟩ := Except.bind_eq_ok_iff.1 h
  cases h
  exact ⟨first, more, head, tail, rfl⟩

theorem cutBlocks_numbered {blocks : List Block} {nextBlock nextState : Nat} {cut : Cut}
    (h : cutBlocks p live blocks nextBlock nextState = .ok cut) :
    cut.Numbered (blocks.map Block.id) nextBlock nextState (siteCount blocks) := by
  induction blocks generalizing nextBlock nextState cut with
  | nil =>
    rw [cutBlocks] at h
    cases h
    exact ⟨by simp [siteCount], by simp [siteCount], rfl, rfl⟩
  | cons b rest ih =>
    obtain ⟨first, more, head, tail, rfl⟩ := cutBlocks_cons h
    obtain ⟨blocks, states, lastBlock, lastState⟩ := cutFrom_numbered head
    rw [lastBlock, lastState] at tail
    obtain ⟨blocks', states', lastBlock', lastState'⟩ := ih tail
    have count : siteCount (b :: rest) =
        (Ascending.ofList id b.suspendSites).length + siteCount rest := rfl
    rw [count]
    constructor
    · rw [Nat.mul_add, ← List.range'_append_1, List.map_append, List.map_append, List.map_cons]
      refine (blocks.append blocks').trans ?_
      simp only [List.cons_append, List.nil_append]
      exact (List.perm_append_comm_assoc _ _ _).cons b.id
    · rw [← List.range'_append_1, List.map_append, List.map_append, states, states']
    · rw [lastBlock']
      ring
    · rw [lastState']
      ring

theorem cutBlocks_undispatched {blocks : List Block} {nextBlock nextState : Nat} {cut : Cut}
    (plain : ∀ b ∈ blocks, b.terminator.isResumption = false)
    (h : cutBlocks p live blocks nextBlock nextState = .ok cut) : cut.Undispatched := by
  induction blocks generalizing nextBlock nextState cut with
  | nil =>
    rw [cutBlocks] at h
    cases h
    exact ⟨rfl, by simp⟩
  | cons b rest ih =>
    rw [List.forall_mem_cons] at plain
    obtain ⟨first, more, head, tail, rfl⟩ := cutBlocks_cons h
    obtain ⟨calls, blocks⟩ := cutFrom_undispatched plain.1 head
    obtain ⟨calls', blocks'⟩ := ih plain.2 tail
    constructor
    · rw [List.filterMap_append, List.map_append, List.map_append, calls, calls']
    · rw [List.forall_mem_append]
      exact ⟨blocks, blocks'⟩

/-! ## The dispatcher stands at its number -/

/-- A block that is the last one of a list stands behind all that have lower numbers. -/
theorem mem_take_sort {blocks : List Block} {last : Block} {place : Nat}
    (alone : last ∉ blocks)
    (here : (Ascending.sort (fun b => b.id.index) (blocks ++ [last]))[place]? = some last)
    {b : Block} (mem : b ∈ blocks) (le : b.id.index ≤ last.id.index) :
    b ∈ (Ascending.sort (fun b => b.id.index) (blocks ++ [last])).take place := by
  have pair : [b, last].Sublist (Ascending.sort (fun b => b.id.index) (blocks ++ [last])) :=
    Ascending.pair_sublist_sort le
      ((List.singleton_sublist.2 mem).append (List.Sublist.refl [last]))
  revert pair here
  have perm : (Ascending.sort (fun b : Block => b.id.index) (blocks ++ [last])).Perm
      (blocks ++ [last]) := Ascending.sort_perm _
  revert perm
  generalize Ascending.sort (fun b : Block => b.id.index) (blocks ++ [last]) = sorted
  intro perm here pair
  obtain ⟨lt, found⟩ := List.getElem?_eq_some_iff.1 here
  have split := (List.take_append_drop place sorted).symm
  rw [List.drop_eq_getElem_cons lt, found] at split
  have once : last ∉ sorted.take place ∧ last ∉ sorted.drop (place + 1) := by
    have count : sorted.count last = 1 := by
      rw [perm.count_eq, List.count_append, List.count_eq_zero.2 alone]
      simp
    rw [split, List.count_append, List.count_cons_self] at count
    constructor <;> (apply List.count_eq_zero.1; omega)
  rw [split, List.sublist_append_iff] at pair
  obtain ⟨early, late, parts, first, second⟩ := pair
  cases early with
  | nil =>
    rw [List.nil_append] at parts
    subst parts
    -- the block would stand behind the last one, and that would occur twice
    have : last ∈ sorted.drop (place + 1) := by
      cases second with
      | cons _ rest => exact rest.subset (by simp)
      | cons_cons _ rest => exact rest.subset (by simp)
    exact absurd this once.2
  | cons c early =>
    rw [List.cons_append, List.cons.injEq] at parts
    rw [parts.1]
    exact first.subset List.mem_cons_self

/-- A procedure put together from the pieces of another one. -/
structure Assembling (p : Procedure) (live : Liveness) (cut : Cut) (w : Procedure) : Prop where
  sound : p.Sound
  unwoven : p.attrs.woven = false
  computed : Liveness.compute? p = some live
  cut_ok : cutBlocks p live p.blocks p.blocks.length 1 = .ok cut
  form : w = p.assemble cut

/-- The new entry. -/
def Assembled.entry (p : Procedure) (cut : Cut) : Block :=
  dispatcher (BlockId.ofIndex cut.nextBlock) p.entryBlock cut.states

namespace Assembling

open Assembled (entry)

variable {w : Procedure} {cut : Cut}

theorem numbered (h : Assembling p live cut w) :
    cut.Numbered (p.blocks.map Block.id) p.blocks.length 1 (siteCount p.blocks) :=
  cutBlocks_numbered h.cut_ok

theorem undispatched (h : Assembling p live cut w) : cut.Undispatched := by
  refine cutBlocks_undispatched (fun b mem => ?_) h.cut_ok
  exact (h.sound.blocks b mem).isResumption_terminator h.unwoven

theorem blocks_eq (h : Assembling p live cut w) :
    w.blocks = Ascending.sort (fun b => b.id.index) (cut.blocks ++ [entry p cut]) := by
  rw [h.form]
  rfl

theorem entryBlock_eq (h : Assembling p live cut w) :
    w.entryBlock = BlockId.ofIndex cut.nextBlock := by
  rw [h.form]
  rfl

/-- The numbers of the blocks that are cut, before they wrap. -/
theorem ids_perm (h : Assembling p live cut w) :
    (cut.blocks.map Block.id).Perm ((List.range cut.nextBlock).map BlockId.ofIndex) := by
  have kept : p.blocks.map Block.id = (List.range p.blocks.length).map BlockId.ofIndex := by
    refine List.ext_getElem? fun i => ?_
    rw [List.getElem?_map, List.getElem?_map]
    cases found : p.blocks[i]? with
    | none =>
      rw [List.getElem?_eq_none (by simpa using found)]
      rfl
    | some b =>
      obtain ⟨lt, -⟩ := List.getElem?_eq_some_iff.1 found
      rw [List.getElem?_range lt, Option.map_some, Option.map_some, ← h.sound.numbered i b found]
      unfold BlockId.ofIndex BlockId.index
      rw [UInt32.ofNat_toNat]
  have whole : List.range p.blocks.length ++ List.range' p.blocks.length
      (2 * siteCount p.blocks) = List.range cut.nextBlock := by
    have parts := @List.range'_append_1 0 p.blocks.length (2 * siteCount p.blocks)
    rw [Nat.zero_add] at parts
    rw [List.range_eq_range', List.range_eq_range', parts, h.numbered.nextBlock]
  have perm := h.numbered.blocks
  rwa [kept, ← List.map_append, whole] at perm

theorem entry_notMem (h : Assembling p live cut w) : entry p cut ∉ cut.blocks := by
  intro mem
  exact h.undispatched.blocks _ mem _ _ rfl

/-- Where the result is verified, the numbers do not wrap. -/
theorem nextBlock_lt (h : Assembling p live cut w) (verified : w.verify = .ok ()) :
    cut.nextBlock < 2 ^ 32 := by
  by_contra wraps
  obtain ⟨found, fresh, arms, _, form⟩ := Procedure.verify_eq_ok_iff.1 verified
  have here := form.found
  have dispatches := form.dispatches
  unfold Procedure.block? at here
  rw [h.blocks_eq, h.entryBlock_eq] at here
  have same : found = entry p cut := by
    have mem := List.mem_of_getElem? here
    rw [Ascending.mem_sort, List.mem_append, List.mem_singleton] at mem
    exact mem.resolve_left fun mem => h.undispatched.blocks _ mem _ _ dispatches
  subst same
  have low := BlockId.index_lt (BlockId.ofIndex cut.nextBlock)
  -- all numbers up to that of the dispatcher are in front of it
  have sub : List.range ((BlockId.ofIndex cut.nextBlock).index + 1) ⊆
      ((Ascending.sort (fun b => b.id.index) (cut.blocks ++ [entry p cut])).take
        (BlockId.ofIndex cut.nextBlock).index).map fun b => b.id.index := by
    intro n mem
    rw [List.mem_range] at mem
    have listed : BlockId.ofIndex n ∈ cut.blocks.map Block.id :=
      h.ids_perm.mem_iff.2 (List.mem_map_of_mem (List.mem_range.2 (by omega)))
    obtain ⟨b, there, number⟩ := List.mem_map.1 listed
    have index : b.id.index = n := by rw [number, BlockId.index_ofIndex (by omega)]
    refine List.mem_map.2 ⟨b, mem_take_sort h.entry_notMem here there ?_, index⟩
    rw [index]
    exact Nat.lt_succ_iff.1 mem
  have few := (List.nodup_range.subperm sub).length_le
  rw [List.length_range, List.length_map] at few
  have short := List.length_take_le (BlockId.ofIndex cut.nextBlock).index
    (Ascending.sort (fun b => b.id.index) (cut.blocks ++ [entry p cut]))
  omega

end Assembling

/-- A woven procedure with what it was made of.  Its numbers do not wrap. -/
structure Assembled (p : Procedure) (live : Liveness) (cut : Cut) (w : Procedure) : Prop
    extends Assembling p live cut w where
  nextBlock_lt : cut.nextBlock < 2 ^ 32

theorem Procedure.exists_assembled {w : Procedure} (sound : p.Sound)
    (unwoven : p.attrs.woven = false) (h : p.resumableForm = .ok w) :
    ∃ live cut, Assembled p live cut w := by
  unfold resumableForm at h
  cases computed : Liveness.compute? p with
  | none =>
    rw [computed] at h
    cases h
  | some live =>
    rw [computed] at h
    obtain ⟨cut, cutOk, h⟩ := Except.bind_eq_ok_iff.1 h
    obtain ⟨verified, h⟩ := Except.seq_eq_ok_iff.1 h
    cases h
    have parts : Assembling p live cut (p.assemble cut) := ⟨sound, unwoven, computed, cutOk, rfl⟩
    exact ⟨live, cut, parts, parts.nextBlock_lt verified⟩

namespace Assembled

variable {w : Procedure} {cut : Cut}

/-! ## Look-ups -/

theorem mem_blocks_iff (h : Assembled p live cut w) {b : Block} :
    b ∈ w.blocks ↔ b ∈ cut.blocks ∨ b = entry p cut := by
  rw [h.blocks_eq, Ascending.mem_sort, List.mem_append, List.mem_singleton]

theorem map_index (h : Assembled p live cut w) :
    w.blocks.map (fun b => b.id.index) = List.range (cut.nextBlock + 1) := by
  have perm : (w.blocks.map fun b => b.id.index).Perm (List.range (cut.nextBlock + 1)) := by
    have ids : ((cut.blocks ++ [entry p cut]).map fun b => b.id.index).Perm
        ((List.range (cut.nextBlock + 1)).map fun n => (BlockId.ofIndex n).index) := by
      have all := (h.ids_perm.append_right [BlockId.ofIndex cut.nextBlock]).map BlockId.index
      rw [List.range_succ, List.map_append]
      simpa [Function.comp_def, entry, dispatcher, Block.empty] using all
    have same : (List.range (cut.nextBlock + 1)).map (fun n => (BlockId.ofIndex n).index) =
        List.range (cut.nextBlock + 1) := by
      conv_rhs => rw [← List.map_id (List.range (cut.nextBlock + 1))]
      refine List.map_congr_left fun n mem => ?_
      have := h.nextBlock_lt
      rw [List.mem_range] at mem
      exact BlockId.index_ofIndex (by omega)
    rw [same] at ids
    rw [h.blocks_eq]
    exact ((Ascending.sort_perm _).map _).trans ids
  refine perm.eq_of_pairwise (fun a b _ _ => Nat.le_antisymm) ?_ List.pairwise_le_range
  rw [h.blocks_eq, List.pairwise_map]
  exact Ascending.pairwise_sort _

/-- A block is found at its number. -/
theorem block?_id (h : Assembled p live cut w) {b : Block} (mem : b ∈ w.blocks) :
    w.block? b.id = some b := by
  obtain ⟨i, found⟩ := List.getElem?_of_mem mem
  have number : (w.blocks.map fun b => b.id.index)[i]? = some b.id.index := by
    rw [List.getElem?_map, found]
    rfl
  rw [h.map_index] at number
  obtain ⟨lt, same⟩ := List.getElem?_eq_some_iff.1 number
  rw [List.getElem_range] at same
  unfold Procedure.block?
  rw [← same, found]

theorem block?_entry (h : Assembled p live cut w) :
    w.block? w.entryBlock = some (dispatcher w.entryBlock p.entryBlock cut.states) := by
  rw [h.entryBlock_eq]
  exact h.block?_id (h.mem_blocks_iff.2 (Or.inr rfl))

/-- The states have different numbers, and none has that of fresh entry. -/
theorem nodup_states (h : Assembled p live cut w) :
    (StateId.entry :: cut.states.map ResumptionState.id).Nodup := by
  have all : StateId.entry :: cut.states.map ResumptionState.id =
      (List.range (siteCount p.blocks + 1)).map StateId.ofIndex := by
    rw [h.numbered.states, List.range_eq_range', List.range'_succ]
    rfl
  have low := h.nextBlock_lt
  rw [h.numbered.nextBlock] at low
  rw [all]
  refine List.Nodup.map_on (fun a ha b hb same => ?_) List.nodup_range
  rw [List.mem_range] at ha hb
  have index := congrArg StateId.index same
  rwa [StateId.index_ofIndex (by omega), StateId.index_ofIndex (by omega)] at index

/-- The states are fresh entry and those of the cut, with their successors. -/
theorem states_eq (h : Assembled p live cut w) :
    ∃ reachable : BlockId → List StateId, ∃ slots, w.states =
      ({ id := StateId.entry, block := p.entryBlock, live := slots, successors := [] } ::
        cut.states).map fun s => { s with successors := reachable s.block } := by
  rw [h.form]
  exact ⟨_, _, rfl⟩

theorem state?_id (h : Assembled p live cut w) {s : ResumptionState} (mem : s ∈ cut.states) :
    ∃ successors, w.state? s.id = some { s with successors } := by
  obtain ⟨reachable, slots, states⟩ := h.states_eq
  refine ⟨reachable s.block, ?_⟩
  unfold Procedure.state?
  rw [states]
  have nodup : ((({ id := StateId.entry, block := p.entryBlock, live := slots, successors := [] } ::
      cut.states).map fun s => { s with successors := reachable s.block }).map
        ResumptionState.id).Nodup := by
    rw [List.map_map]
    exact h.nodup_states
  exact find?_of_nodup nodup
    (List.mem_map_of_mem (f := fun s => { s with successors := reachable s.block })
      (List.mem_cons_of_mem _ mem))

/-- The dispatcher leads from a state to the resume block of the state. -/
theorem arm (h : Assembled p live cut w) {s : ResumptionState} (mem : s ∈ cut.states) :
    (cut.states.map fun s => (s.id, s.block)).find? (·.1 == s.id) = some (s.id, s.block) := by
  have nodup : ((cut.states.map fun s => (s.id, s.block)).map Prod.fst).Nodup := by
    rw [List.map_map]
    exact (List.nodup_cons.1 h.nodup_states).2
  exact find?_of_nodup nodup (List.mem_map_of_mem (f := fun s => (s.id, s.block)) mem)

theorem ne_entry (h : Assembled p live cut w) {s : ResumptionState} (mem : s ∈ cut.states) :
    s.id ≠ StateId.entry := by
  intro same
  exact (List.nodup_cons.1 h.nodup_states).1 (same ▸ List.mem_map_of_mem mem)

/-- Every state has one suspending call. -/
theorem suspensions_perm (h : Assembled p live cut w) :
    (w.suspensions.map Prod.fst).Perm (cut.states.map ResumptionState.id) := by
  have perm : w.suspensions.Perm
      (cut.blocks.filterMap fun b => b.terminator.suspension?) := by
    unfold Procedure.suspensions
    rw [h.blocks_eq]
    refine ((Ascending.sort_perm _).filterMap _).trans ?_
    rw [List.filterMap_append]
    simp [entry, dispatcher, Terminator.suspension?]
  rw [← h.undispatched.calls]
  exact perm.map Prod.fst

/-- No two suspending calls carry one state. -/
theorem nodup_suspensions (h : Assembled p live cut w) :
    (w.suspensions.map Prod.fst).Nodup :=
  h.suspensions_perm.nodup_iff.2 (List.nodup_cons.1 h.nodup_states).2

end Assembled

end Resumable
