import Resumable.Proofs.Weave.Correspondence

/-!
# A woven procedure is well formed

Weaving keeps the rules that `Procedure.validate` checks (`Assembled.isSound`): the
pieces of a block lead to blocks that there are, and what they read, write, save and restore
is declared.

It also keeps the calls of a procedure (`Assembled.calls_perm`).  A call that is cut out of
the statements is the terminator of a piece.
-/

namespace Resumable

variable {p w : Procedure} {live : Liveness} {cut part : Cut} {b : Block} {id : BlockId}
  {start nextBlock nextState : Nat} {sites : List Nat} {blocks : List Block}

/-! ## Numbers and locals -/

/-- The first piece of a cut has the number that was asked for. -/
theorem cutFrom_first (ok : cutFrom p live b id start sites nextBlock nextState = .ok part) :
    ∃ c ∈ part.blocks, c.id = id :=
  List.mem_map.1 ((cutFrom_numbered ok).blocks.mem_iff.2 List.mem_cons_self)

/-- The resume block of every state of a cut is one of its blocks. -/
theorem cutFrom_resumed (ok : cutFrom p live b id start sites nextBlock nextState = .ok part) :
    ∀ s ∈ part.states, ∃ c ∈ part.blocks, c.id = s.block := by
  induction sites generalizing id start nextBlock nextState part with
  | nil =>
    rw [cutFrom] at ok
    cases ok
    exact fun _ mem => absurd mem List.not_mem_nil
  | cons site sites ih =>
    obtain ⟨dst, func, args, more, -, rest, rfl⟩ := cutFrom_cons ok
    intro s mem
    rcases List.mem_cons.1 mem with rfl | later
    · exact ⟨_, List.mem_cons_of_mem _ List.mem_cons_self, rfl⟩
    · obtain ⟨c, there, same⟩ := ih rest s later
      exact ⟨c, List.mem_cons_of_mem _ (List.mem_cons_of_mem _ there), same⟩

theorem cutBlocks_resumed (ok : cutBlocks p live blocks nextBlock nextState = .ok cut) :
    ∀ s ∈ cut.states, ∃ c ∈ cut.blocks, c.id = s.block := by
  induction blocks generalizing nextBlock nextState cut with
  | nil =>
    rw [cutBlocks] at ok
    cases ok
    exact fun _ mem => absurd mem List.not_mem_nil
  | cons b rest ih =>
    obtain ⟨first, more, head, tail, rfl⟩ := cutBlocks_cons ok
    intro s mem
    rcases List.mem_append.1 mem with mem | mem
    · obtain ⟨c, there, same⟩ := cutFrom_resumed head s mem
      exact ⟨c, List.mem_append_left _ there, same⟩
    · obtain ⟨c, there, same⟩ := ih tail s mem
      exact ⟨c, List.mem_append_right _ there, same⟩

namespace Assembled

theorem id_eq (h : Assembled p live cut w) : w.id = p.id := by
  rw [h.form]
  rfl

theorem woven (h : Assembled p live cut w) : w.attrs.woven = true := by
  rw [h.form]
  rfl

theorem bridge_eq (h : Assembled p live cut w) : w.attrs.bridge = p.attrs.bridge := by
  rw [h.form]
  rfl

theorem length_blocks (h : Assembled p live cut w) : w.blocks.length = cut.nextBlock + 1 := by
  have lengths := congrArg List.length h.map_index
  rwa [List.length_map, List.length_range] at lengths

theorem index_lt (h : Assembled p live cut w) (mem : b ∈ w.blocks) :
    b.id.index < w.blocks.length := by
  rw [h.length_blocks, ← List.mem_range, ← h.map_index]
  exact List.mem_map_of_mem mem

theorem length_le (h : Assembled p live cut w) : p.blocks.length ≤ w.blocks.length := by
  rw [h.length_blocks, h.numbered.nextBlock]
  omega

/-! ## Blocks -/

/-- A part of a block keeps the rules, if its own code does. -/
theorem blockSound_piece (h : Assembled p live cut w) (sound : p.BlockSound b)
    {statements : List Stmt} {terminator : Terminator}
    (locals : ∀ s ∈ statements, ∀ l ∈ s.defs ++ s.uses, p.declares l = true)
    (edges : ∀ t ∈ terminator.successors, t.index < w.blocks.length)
    (localsEnd : ∀ l ∈ terminator.def?.toList ++ terminator.uses, p.declares l = true) :
    w.BlockSound (b.piece id statements terminator) where
  edges := edges
  handler _ mem := by
    obtain ⟨target, bind⟩ := sound.handler _ mem
    exact ⟨Nat.lt_of_lt_of_le target h.length_le, (h.declares_eq _).trans bind⟩
  plain _ _ _ := h.woven
  locals s mem l use := (h.declares_eq l).trans (locals s mem l use)
  plainEnd _ := h.woven
  localsEnd l use := (h.declares_eq l).trans (localsEnd l use)

theorem blockSound_cutFrom (h : Assembled p live cut w) (solves : live.Solves p)
    (mem : b ∈ p.blocks)
    (ok : cutFrom p live b id start sites nextBlock nextState = .ok part)
    (sub : part.blocks ⊆ cut.blocks) : ∀ c ∈ part.blocks, w.BlockSound c := by
  have sound := h.sound.blocks b mem
  induction sites generalizing id start nextBlock nextState part with
  | nil =>
    rw [cutFrom] at ok
    cases ok
    refine List.forall_mem_singleton.2 (h.blockSound_piece sound ?_ ?_ sound.localsEnd)
    · exact fun s there => sound.locals s (List.drop_subset _ _ there)
    · exact fun t edge => Nat.lt_of_lt_of_le (sound.edges t edge) h.length_le
  | cons site sites ih =>
    obtain ⟨dst, func, args, more, call, rest, rfl⟩ := cutFrom_cons ok
    obtain ⟨-, -, sub⟩ : _ ∧ _ ∧ more.blocks ⊆ cut.blocks := by
      rwa [List.cons_subset, List.cons_subset] at sub
    have next : (BlockId.ofIndex nextBlock).index < w.blocks.length := by
      obtain ⟨c, there, same⟩ := cutFrom_first rest
      rw [← same]
      exact h.index_lt (h.mem_blocks_iff.2 (Or.inl (sub there)))
    have called : ∀ l ∈ dst.toList ++ args.filterMap Operand.local?, p.declares l = true :=
      sound.locals _ (List.mem_of_getElem? call)
    rw [List.forall_mem_append] at called
    have saved : ∀ l ∈ live.saveSet b site dst, p.declares l = true := fun l =>
      solves.declared_saveSet h.sound mem
    refine List.forall_mem_cons.2 ⟨h.blockSound_piece sound ?_ ?_ ?_,
      List.forall_mem_cons.2 ⟨h.blockSound_piece sound ?_ ?_ ?_, ih rest sub⟩⟩
    · exact fun s there => sound.locals s (List.take_subset _ _ (List.drop_subset _ _ there))
    · exact List.forall_mem_singleton.2 next
    · simp only [Terminator.def?, Terminator.uses, List.forall_mem_append]
      exact ⟨called.1, called.2, saved⟩
    · simp only [List.forall_mem_cons, Stmt.defs, Stmt.uses, List.append_nil]
      exact ⟨saved, called.1, fun _ mem => absurd mem List.not_mem_nil⟩
    · exact List.forall_mem_singleton.2 next
    · exact fun _ use => absurd use List.not_mem_nil

theorem blockSound_cutBlocks (h : Assembled p live cut w) (solves : live.Solves p)
    (mem : blocks ⊆ p.blocks)
    (ok : cutBlocks p live blocks nextBlock nextState = .ok part)
    (sub : part.blocks ⊆ cut.blocks) : ∀ c ∈ part.blocks, w.BlockSound c := by
  induction blocks generalizing nextBlock nextState part with
  | nil =>
    rw [cutBlocks] at ok
    cases ok
    exact fun _ mem => absurd mem List.not_mem_nil
  | cons b rest ih =>
    obtain ⟨first, more, head, tail, rfl⟩ := cutBlocks_cons ok
    rw [List.cons_subset] at mem
    rw [List.append_subset] at sub
    exact List.forall_mem_append.2
      ⟨h.blockSound_cutFrom solves mem.1 head sub.1, ih mem.2 tail sub.2⟩

/-- The dispatcher leads to the old entry and to resume blocks. -/
theorem blockSound_entry (h : Assembled p live cut w) : w.BlockSound (entry p cut) where
  edges := by
    refine List.forall_mem_cons.2 ⟨Nat.lt_of_lt_of_le h.sound.entry h.length_le, fun t arm => ?_⟩
    rw [List.map_map] at arm
    obtain ⟨s, mem, leads⟩ := List.mem_map.1 arm
    obtain ⟨c, there, same⟩ := cutBlocks_resumed h.cut_ok s mem
    have leads : c.id = t := same.trans leads
    rw [← leads]
    exact h.index_lt (h.mem_blocks_iff.2 (Or.inl there))
  handler _ mem := by cases mem
  plain _ mem := absurd mem List.not_mem_nil
  locals _ mem := absurd mem List.not_mem_nil
  plainEnd _ := h.woven
  localsEnd _ mem := absurd mem List.not_mem_nil

/-- A woven procedure keeps the rules. -/
theorem isSound (h : Assembled p live cut w) : w.Sound where
  entry := by
    rw [h.entryBlock_eq]
    exact h.index_lt (h.mem_blocks_iff.2 (Or.inr rfl))
  numbered i b found := by
    have number : (w.blocks.map fun b => b.id.index)[i]? = some b.id.index := by
      rw [List.getElem?_map, found]
      rfl
    rw [h.map_index] at number
    obtain ⟨lt, same⟩ := List.getElem?_eq_some_iff.1 number
    rw [← same, List.getElem_range]
  blocks b mem := by
    obtain ⟨live', computed, solves⟩ := Liveness.compute?_eq_some h.sound
    obtain rfl : live = live' := Option.some.inj (h.computed.symm.trans computed)
    rcases h.mem_blocks_iff.1 mem with mem | rfl
    · exact h.blockSound_cutBlocks solves (List.Subset.refl _) h.cut_ok (List.Subset.refl _) b mem
    · exact h.blockSound_entry

end Assembled

/-! ## Calls -/

theorem calls_cutFrom (ok : cutFrom p live b id start sites nextBlock nextState = .ok part)
    (plain : b.terminator.callee? = none) (ascending : sites.Pairwise (· < ·))
    (ahead : ∀ s ∈ sites, start ≤ s) :
    part.blocks.flatMap Block.calls = (b.statements.drop start).filterMap Stmt.callee? := by
  induction sites generalizing id start nextBlock nextState part with
  | nil =>
    rw [cutFrom] at ok
    cases ok
    simp [Block.calls, Block.piece, plain]
  | cons site sites ih =>
    obtain ⟨dst, func, args, more, call, rest, rfl⟩ := cutFrom_cons ok
    rw [List.pairwise_cons] at ascending
    rw [List.forall_mem_cons] at ahead
    have later := ih rest ascending.2 fun s mem => ascending.1 s mem
    rw [drop_eq_around call ahead.1, List.filterMap_append]
    simp [Block.calls, Block.piece, Block.resumption, Terminator.callee?, Stmt.callee?, later]

theorem calls_cutBlocks (ok : cutBlocks p live blocks nextBlock nextState = .ok cut)
    (plain : ∀ b ∈ blocks, b.terminator.callee? = none) :
    cut.blocks.flatMap Block.calls = blocks.flatMap Block.calls := by
  induction blocks generalizing nextBlock nextState cut with
  | nil =>
    rw [cutBlocks] at ok
    cases ok
    rfl
  | cons b rest ih =>
    obtain ⟨first, more, head, tail, rfl⟩ := cutBlocks_cons ok
    rw [List.forall_mem_cons] at plain
    have calls : first.blocks.flatMap Block.calls = b.calls := by
      rw [calls_cutFrom head plain.1 (Ascending.sorted_ofList _) fun _ _ => Nat.zero_le _,
        List.drop_zero, Block.calls, plain.1]
      exact (List.append_nil _).symm
    rw [List.flatMap_append, List.flatMap_cons, calls, ih tail plain.2]

/-- A woven procedure makes the calls of the original one, in another order. -/
theorem Assembled.calls_perm (h : Assembled p live cut w) : w.calls.Perm p.calls := by
  have plain : ∀ b ∈ p.blocks, b.terminator.callee? = none := by
    intro b mem
    have quiet := (h.sound.blocks b mem).isResumption_terminator h.unwoven
    cases last : b.terminator with
    | suspendCall =>
      rw [last] at quiet
      cases quiet
    | _ => rfl
  have calls : (cut.blocks ++ [entry p cut]).flatMap Block.calls = p.calls := by
    rw [List.flatMap_append, calls_cutBlocks h.cut_ok plain]
    exact List.append_nil _
  unfold Procedure.calls at calls ⊢
  rw [h.blocks_eq, ← calls]
  exact (Ascending.sort_perm _).flatMap_right _

end Resumable
