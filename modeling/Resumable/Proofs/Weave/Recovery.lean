import Resumable.Proofs.Weave.Dropped

/-!
# The original code in a woven procedure

A cut moves code into new blocks but keeps all of it.  `Procedure.pieces` follows the
suspending calls of a woven procedure from a block on.  From the number of an original
block these pieces hold its statements in order, with the calls that became terminators
between them (`Assembled.cutUp`, by induction on the positions of the cuts).

The blocks of a woven procedure are the pieces of the original blocks, the resume block of
each cut, and the dispatcher.  The positions of the cuts can be read off the pieces, and
the number of original blocks off the dispatcher, so a woven procedure can be turned back
(`Procedure.unweave`).  Only the order and the repetitions of the marks are lost, and
states that the original recorded without being woven.
-/

namespace Resumable

/-! ## Reading a woven procedure back -/

/-- The call that a suspending call was before the cut. -/
def Terminator.call? : Terminator → Option Stmt
  | .suspendCall dst func args _ _ _ => some (.call dst func args)
  | _ => none

/-- The piece behind a suspending call. -/
def Terminator.next? : Terminator → Option BlockId
  | .suspendCall _ _ _ _ _ next => some next
  | _ => none

/-- The state of a suspending call. -/
def Terminator.state? (t : Terminator) : Option StateId :=
  t.suspension?.map Prod.fst

/-- The statements of a piece and the call at its end. -/
def Block.readBack (b : Block) : List Stmt :=
  b.statements ++ b.terminator.call?.toList

/-- Where the suspending calls of pieces stand in the code that they hold together, from a
position on. -/
def cutPositions : Nat → List Block → List Nat
  | _, [] => []
  | start, b :: rest =>
    let behind := cutPositions (start + b.readBack.length) rest
    if b.terminator.call?.isSome then (start + b.statements.length) :: behind else behind

/-- The block that was cut into pieces. -/
def Block.join? (pieces : List Block) : Option Block :=
  pieces.head?.bind fun first => pieces.getLast?.map fun last =>
    { id := first.id
      statements := pieces.flatMap Block.readBack
      terminator := last.terminator
      handler := first.handler
      suspendSites := cutPositions 0 pieces }

namespace Procedure

/-- The blocks from one on along the suspending calls, so many at most. -/
def piecesFrom (w : Procedure) : Nat → BlockId → List Block
  | 0, _ => []
  | limit + 1, id =>
    match w.block? id with
    | none => []
    | some b => b :: match b.terminator.next? with
      | none => []
      | some next => w.piecesFrom limit next

/-- The blocks from one on along the suspending calls. -/
def pieces (w : Procedure) (id : BlockId) : List Block :=
  w.piecesFrom w.blocks.length id

/-- Where the entry leads on a fresh call, and from each state. -/
def dispatch? (w : Procedure) : Option (BlockId × List (StateId × BlockId)) :=
  (w.block? w.entryBlock).bind fun entry =>
    match entry.terminator with
    | .dispatch fresh arms => some (fresh, arms)
    | _ => none

/-- The block at which the suspended call of a piece is taken up again. -/
def resumeBlock? (w : Procedure) (piece : Block) : Option Block := do
  let state ← piece.terminator.state?
  let (_, arms) ← w.dispatch?
  let arm ← arms.find? (·.1 == state)
  w.block? arm.2

/-- The states of the pieces of a block. -/
def pieceStates (w : Procedure) (id : BlockId) : List StateId :=
  (w.pieces id).filterMap fun c => c.terminator.state?

/-- A procedure before it was woven.  Each arm of the dispatcher stands for a cut, which
added two blocks behind the original ones. -/
def unweave (w : Procedure) : Procedure :=
  match w.dispatch? with
  | none => w
  | some (fresh, arms) =>
    let kept := w.blocks.take (w.blocks.length - (2 * arms.length + 1))
    { w with
      blocks := kept.filterMap fun b => Block.join? (w.pieces b.id)
      entryBlock := fresh
      attrs := { w.attrs with woven := false }
      states := [] }

end Procedure

/-- A block whose marks are in order, each once. -/
def Block.sortMarks (b : Block) : Block := { b with suspendSites := cutSites b }

/-! ## Small facts -/

variable {p w : Procedure} {live : Liveness} {cut : Cut}

theorem Terminator.call?_eq_none {t : Terminator} (plain : t.isResumption = false) :
    t.call? = none := by
  cases t with
  | suspendCall => cases plain
  | _ => rfl

theorem Terminator.next?_eq_none {t : Terminator} (plain : t.isResumption = false) :
    t.next? = none := by
  cases t with
  | suspendCall => cases plain
  | _ => rfl

theorem Terminator.state?_eq_none {t : Terminator} (plain : t.isResumption = false) :
    t.state? = none := by
  cases t with
  | suspendCall => cases plain
  | _ => rfl

namespace Procedure

theorem piecesFrom_last {limit : Nat} {id : BlockId} {b : Block} (found : w.block? id = some b)
    (ends : b.terminator.next? = none) : w.piecesFrom (limit + 1) id = [b] := by
  simp only [piecesFrom, found, ends]

theorem piecesFrom_next {limit : Nat} {id next : BlockId} {b : Block}
    (found : w.block? id = some b) (goes : b.terminator.next? = some next) :
    w.piecesFrom (limit + 1) id = b :: w.piecesFrom limit next := by
  simp only [piecesFrom, found, goes]

end Procedure

theorem Assembled.dispatch? (h : Assembled p live cut w) :
    w.dispatch? = some (p.entryBlock, cut.states.map fun s => (s.id, s.block)) := by
  unfold Procedure.dispatch?
  rw [h.block?_entry]
  rfl

/-- A state leads to its resume block. -/
theorem Assembled.resumeBlock? (h : Assembled p live cut w) {piece resume : Block}
    {s : ResumptionState} (state : piece.terminator.state? = some s.id)
    (recorded : s ∈ cut.states) (stands : resume ∈ cut.blocks) (leads : s.block = resume.id) :
    w.resumeBlock? piece = some resume := by
  unfold Procedure.resumeBlock?
  have found := h.block?_id (h.mem_blocks_iff.2 (Or.inl stands))
  rw [← leads] at found
  simp only [state, h.dispatch?, Option.bind_eq_bind, Option.bind_some, h.arm recorded, found]

/-! ## The pieces of one block -/

/-- The pieces of a woven procedure that hold the code of a block from a position on: the
first one has a given number and the others have new ones, the cuts are at given positions,
and each has its resume block.  The blocks and the states are those of a cut. -/
structure Procedure.CutUp (p w : Procedure) (b : Block) (id : BlockId) (start : Nat)
    (sites : List Nat) (part : Cut) (pieces : List Block) : Prop where
  code : pieces.flatMap Block.readBack = b.statements.drop start
  positions : cutPositions start pieces = sites
  ends : pieces.getLast?.map Block.terminator = some b.terminator
  numbers : ∃ first more, pieces = first :: more ∧ first.id = id ∧
    ∀ c ∈ more, p.blocks.length ≤ c.id.index
  handler : ∀ c ∈ pieces, c.handler = b.handler
  resumes : ∀ c ∈ pieces, ∀ dst func args state save next,
    c.terminator = .suspendCall dst func args state save next →
      ∃ resume, w.resumeBlock? c = some (b.resumption resume save dst next)
  blocks : part.blocks.Perm (pieces ++ pieces.filterMap w.resumeBlock?)
  states : (pieces.filterMap fun c => c.terminator.state?) = part.states.map ResumptionState.id

/-- The block from its last cut on is one piece. -/
theorem Assembled.cutUp_last (h : Assembled p live cut w) {b : Block} {id : BlockId}
    {start nextBlock nextState limit : Nat} (plain : b.terminator.isResumption = false)
    (stands : b.piece id (b.statements.drop start) b.terminator ∈ cut.blocks) :
    p.CutUp w b id start []
      { blocks := [b.piece id (b.statements.drop start) b.terminator], states := [],
        nextBlock, nextState } (w.piecesFrom (limit + 1) id) := by
  have found : w.block? id = some _ := h.block?_id (h.mem_blocks_iff.2 (Or.inl stands))
  have call : b.terminator.call? = none := Terminator.call?_eq_none plain
  have state : b.terminator.state? = none := Terminator.state?_eq_none plain
  have none : w.resumeBlock? (b.piece id (b.statements.drop start) b.terminator) = none := by
    unfold Procedure.resumeBlock?
    show (b.terminator.state? >>= _) = _
    rw [state]
    rfl
  rw [Procedure.piecesFrom_last found (Terminator.next?_eq_none plain)]
  constructor
  · simp [Block.readBack, Block.piece, call]
  · simp [cutPositions, Block.piece, call]
  · rfl
  · exact ⟨_, _, rfl, rfl, fun _ mem => absurd mem List.not_mem_nil⟩
  · intro c mem
    rw [List.mem_singleton.1 mem]
    rfl
  · intro c mem dst func args number save next suspends
    rw [List.mem_singleton.1 mem] at suspends
    have suspends : b.terminator = .suspendCall dst func args number save next := suspends
    rw [suspends] at plain
    cases plain
  · rw [List.filterMap_cons_none none]
    exact List.Perm.refl _
  · exact List.filterMap_cons_none state

/-- A cut puts a piece and a resume block in front of the rest. -/
theorem Assembled.cutUp_cut (h : Assembled p live cut w) {b : Block} {id next resume : BlockId}
    {start site : Nat} {sites : List Nat} {dst : Option LocalId} {func : FunctionRef}
    {args : List Operand} {state : StateId} {save : List LocalId} {slots : List LiveSlot}
    {more : Cut} {limit : Nat}
    (here : b.statements[site]? = some (.call dst func args)) (ahead : start ≤ site)
    (fresh : p.blocks.length ≤ next.index)
    (first : b.piece id ((b.statements.take site).drop start)
      (.suspendCall dst func args state save next) ∈ cut.blocks)
    (second : b.resumption resume save dst next ∈ cut.blocks)
    (recorded : ⟨state, resume, slots, []⟩ ∈ cut.states)
    (rest : p.CutUp w b next (site + 1) sites more (w.piecesFrom limit next)) :
    p.CutUp w b id start (site :: sites)
      { more with
        blocks :=
          b.piece id ((b.statements.take site).drop start)
            (.suspendCall dst func args state save next) ::
          b.resumption resume save dst next :: more.blocks
        states := ⟨state, resume, slots, []⟩ :: more.states }
      (w.piecesFrom (limit + 1) id) := by
  obtain ⟨lt, -⟩ := List.getElem?_eq_some_iff.1 here
  have found : w.block? id = some _ := h.block?_id (h.mem_blocks_iff.2 (Or.inl first))
  have taken : w.resumeBlock? (b.piece id ((b.statements.take site).drop start)
      (.suspendCall dst func args state save next)) = some (b.resumption resume save dst next) :=
    h.resumeBlock? rfl recorded second rfl
  have long : ((b.statements.take site).drop start).length = site - start := by
    rw [List.length_drop, List.length_take]
    omega
  obtain ⟨head, tail, form, number, high⟩ := rest.numbers
  rw [Procedure.piecesFrom_next found rfl]
  constructor
  · rw [List.flatMap_cons, rest.code, drop_eq_around here ahead]
    simp [Block.readBack, Block.piece, Terminator.call?]
  · have length : (b.piece id ((b.statements.take site).drop start)
        (.suspendCall dst func args state save next)).readBack.length = site - start + 1 := by
      simp [Block.readBack, Block.piece, Terminator.call?, long]
    rw [cutPositions, length]
    have behind : start + (site - start + 1) = site + 1 := by omega
    have position : start + (site - start) = site := by omega
    simp [Block.piece, Terminator.call?, long, behind, position, rest.positions]
  · rw [form, List.getLast?_cons_cons, ← form]
    exact rest.ends
  · refine ⟨_, _, rfl, rfl, fun c mem => ?_⟩
    rw [form] at mem
    rcases List.mem_cons.1 mem with rfl | mem
    · rw [number]
      exact fresh
    · exact high c mem
  · exact List.forall_mem_cons.2 ⟨rfl, rest.handler⟩
  · refine List.forall_mem_cons.2 ⟨fun _ _ _ _ _ _ suspends => ?_, rest.resumes⟩
    cases suspends
    exact ⟨resume, taken⟩
  · rw [List.filterMap_cons_some taken]
    -- the resume block moves behind the pieces
    refine List.Perm.cons _ ?_
    exact (rest.blocks.cons _).trans List.perm_middle.symm
  · exact congrArg (List.cons state) rest.states

/-- The pieces that a cut makes of a block from a position on. -/
theorem Assembled.cutUp (h : Assembled p live cut w) {b : Block} {id : BlockId} {start : Nat}
    {sites : List Nat} {nextBlock nextState limit : Nat} {part : Cut}
    (plain : b.terminator.isResumption = false)
    (ok : cutFrom p live b id start sites nextBlock nextState = .ok part)
    (ascending : sites.Pairwise (· < ·)) (ahead : ∀ s ∈ sites, start ≤ s)
    (low : p.blocks.length ≤ nextBlock) (high : part.nextBlock ≤ cut.nextBlock)
    (blocks : part.blocks ⊆ cut.blocks) (states : part.states ⊆ cut.states)
    (enough : sites.length < limit) :
    p.CutUp w b id start sites part (w.piecesFrom limit id) := by
  induction sites generalizing id start nextBlock nextState limit part with
  | nil =>
    obtain ⟨limit, rfl⟩ := Nat.exists_eq_succ_of_ne_zero (Nat.ne_of_gt enough)
    rw [cutFrom] at ok
    cases ok
    exact h.cutUp_last plain (blocks List.mem_cons_self)
  | cons site sites ih =>
    obtain ⟨limit, rfl⟩ := Nat.exists_eq_succ_of_ne_zero (Nat.ne_of_gt (Nat.zero_lt_of_lt enough))
    obtain ⟨dst, func, args, more, call, rest, rfl⟩ := cutFrom_cons ok
    rw [List.pairwise_cons] at ascending
    rw [List.forall_mem_cons] at ahead
    rw [List.cons_subset, List.cons_subset] at blocks
    rw [List.cons_subset] at states
    rw [List.length_cons] at enough
    have room := h.nextBlock_lt
    have used := (cutFrom_numbered rest).nextBlock
    have fresh : p.blocks.length ≤ (BlockId.ofIndex nextBlock).index := by
      have high : more.nextBlock ≤ cut.nextBlock := high
      rw [BlockId.index_ofIndex (by omega)]
      exact low
    exact h.cutUp_cut call ahead.1 fresh blocks.1 blocks.2.1 states.1
      (ih rest ascending.2 (fun s mem => ascending.1 s mem) (by omega) high blocks.2.2 states.2
        (by omega))

/-! ## The pieces of all blocks -/

theorem Assembled.length_states (h : Assembled p live cut w) :
    cut.states.length = siteCount p.blocks := by
  have states := congrArg List.length h.numbered.states
  rwa [List.length_map, List.length_map, List.length_range'] at states

/-- What the cut of a list of blocks is made of. -/
structure Procedure.CutApart (p w : Procedure) (blocks : List Block) (part : Cut) : Prop where
  each : ∀ b ∈ blocks, ∃ own, p.CutUp w b b.id 0 (cutSites b) own (w.pieces b.id)
  parts : part.blocks.Perm (blocks.flatMap (fun b => w.pieces b.id) ++
    blocks.flatMap fun b => (w.pieces b.id).filterMap w.resumeBlock?)
  states : (blocks.flatMap fun b => w.pieceStates b.id) = part.states.map ResumptionState.id

theorem Assembled.cutApart (h : Assembled p live cut w) {blocks : List Block}
    {nextBlock nextState : Nat} {part : Cut}
    (plain : ∀ b ∈ blocks, b.terminator.isResumption = false)
    (ok : cutBlocks p live blocks nextBlock nextState = .ok part)
    (low : p.blocks.length ≤ nextBlock) (high : part.nextBlock ≤ cut.nextBlock)
    (inside : part.blocks ⊆ cut.blocks) (states : part.states ⊆ cut.states)
    (enough : siteCount blocks < w.blocks.length) :
    p.CutApart w blocks part := by
  induction blocks generalizing nextBlock nextState part with
  | nil =>
    rw [cutBlocks] at ok
    cases ok
    exact ⟨fun _ mem => absurd mem List.not_mem_nil, List.Perm.refl _, rfl⟩
  | cons b rest ih =>
    obtain ⟨first, more, head, tail, rfl⟩ := cutBlocks_cons ok
    rw [List.forall_mem_cons] at plain
    have high : more.nextBlock ≤ cut.nextBlock := high
    have taken := (cutFrom_numbered head).nextBlock
    have beyond := (cutBlocks_numbered tail).nextBlock
    have count : siteCount (b :: rest) = (cutSites b).length + siteCount rest := rfl
    have own : p.CutUp w b b.id 0 (cutSites b) first (w.piecesFrom w.blocks.length b.id) :=
      h.cutUp plain.1 head (Ascending.sorted_ofList _) (fun _ _ => Nat.zero_le _) low
        (by omega) (List.Subset.trans (List.subset_append_left _ _) inside)
        (List.Subset.trans (List.subset_append_left _ _) states) (by omega)
    have others := ih plain.2 tail (by omega) high
      (List.Subset.trans (List.subset_append_right _ _) inside)
      (List.Subset.trans (List.subset_append_right _ _) states) (by omega)
    constructor
    · exact List.forall_mem_cons.2 ⟨⟨first, own⟩, others.each⟩
    · rw [List.flatMap_cons, List.flatMap_cons]
      refine (own.blocks.append others.parts).trans ?_
      -- both are the pieces of `b`, the other pieces and the resume blocks of both
      rw [List.append_assoc, List.append_assoc]
      refine List.Perm.append_left _ ?_
      exact List.perm_append_comm_assoc _ _ _
    · rw [List.flatMap_cons, List.map_append, others.states]
      exact congrArg (· ++ _) own.states

namespace Assembled

variable (h : Assembled p live cut w)
include h

/-- All blocks of the original are cut, and nothing else is. -/
theorem cutApart_all : p.CutApart w p.blocks cut := by
  have plain : ∀ b ∈ p.blocks, b.terminator.isResumption = false := fun b mem =>
    (h.sound.blocks b mem).isResumption_terminator h.unwoven
  have count := h.length_blocks
  have last := h.numbered.nextBlock
  exact h.cutApart plain h.cut_ok (le_refl _) (le_refl _) (List.Subset.refl _)
    (List.Subset.refl _) (by omega)

/-- The blocks, each once. -/
theorem blocks_perm : w.blocks.Perm
    ((p.blocks.flatMap fun b => w.pieces b.id) ++
      (p.blocks.flatMap fun b => (w.pieces b.id).filterMap w.resumeBlock?) ++
      [dispatcher w.entryBlock p.entryBlock cut.states]) := by
  have sorted : (Ascending.sort (fun b => b.id.index) (cut.blocks ++ [entry p cut])).Perm
      (cut.blocks ++ [entry p cut]) := Ascending.sort_perm _
  rw [← h.blocks_eq] at sorted
  have parts := h.cutApart_all.parts.append_right [entry p cut]
  rw [h.entryBlock_eq]
  exact sorted.trans parts

theorem nodup_ids : (w.blocks.map Block.id).Nodup := by
  have nodup : ((w.blocks.map Block.id).map BlockId.index).Nodup := by
    have indices : (w.blocks.map Block.id).map BlockId.index = _ :=
      List.map_map.trans h.map_index
    rw [indices]
    exact List.nodup_range
  exact nodup.of_map _

/-- The numbers of the states go up from 1. -/
theorem map_state_index :
    cut.states.map (fun s => s.id.index) = List.range' 1 (siteCount p.blocks) := by
  have small := h.nextBlock_lt
  rw [h.numbered.nextBlock] at small
  have states := congrArg (List.map StateId.index) h.numbered.states
  rw [List.map_map, List.map_map] at states
  refine states.trans ?_
  conv_rhs => rw [← List.map_id (List.range' 1 (siteCount p.blocks))]
  refine List.map_congr_left fun n mem => ?_
  rw [List.mem_range'_1] at mem
  exact StateId.index_ofIndex (by omega)

/-- The first blocks have the numbers of the original ones. -/
theorem map_id_take : (w.blocks.take p.blocks.length).map Block.id = p.blocks.map Block.id := by
  have first : (w.blocks.take p.blocks.length).map (fun b => b.id.index) =
      List.range p.blocks.length := by
    have inside : min p.blocks.length (cut.nextBlock + 1) = p.blocks.length := by
      have := h.numbered.nextBlock
      omega
    rw [List.map_take, h.map_index, List.take_range, inside]
  refine BlockId.index_injective.list_map ?_
  rw [List.map_map, List.map_map]
  exact first.trans h.sound.map_index.symm

/-- The pieces of a block make up the block, its marks in order. -/
theorem join?_pieces {b : Block} (mem : b ∈ p.blocks) :
    Block.join? (w.pieces b.id) = some b.sortMarks := by
  obtain ⟨part, own⟩ := h.cutApart_all.each b mem
  obtain ⟨first, more, form, number, -⟩ := own.numbers
  have handler : first.handler = b.handler := own.handler first (by rw [form]; simp)
  have code : (w.pieces b.id).flatMap Block.readBack = b.statements := own.code
  obtain ⟨last, final, ends⟩ := Option.map_eq_some_iff.1 own.ends
  have head : (w.pieces b.id).head? = some first := by rw [form]; rfl
  unfold Block.join? Block.sortMarks
  rw [head, final, code, own.positions]
  simp only [Option.bind_some, Option.map_some, number, ends, handler]

/-- Turning back what was woven. -/
theorem unweave_eq :
    w.unweave = { p with blocks := p.blocks.map Block.sortMarks, states := [] } := by
  have kept : w.blocks.length - (2 * cut.states.length + 1) = p.blocks.length := by
    rw [h.length_blocks, h.numbered.nextBlock, h.length_states]
    omega
  have blocks : (w.blocks.take p.blocks.length).filterMap (fun b => Block.join? (w.pieces b.id)) =
      p.blocks.map Block.sortMarks := by
    have ids := congrArg (List.filterMap fun id => Block.join? (w.pieces id)) h.map_id_take
    rw [List.filterMap_map, List.filterMap_map] at ids
    refine ids.trans ?_
    rw [← List.filterMap_eq_map]
    exact List.filterMap_congr fun b mem => h.join?_pieces mem
  have attrs : { w.attrs with woven := false } = p.attrs := by
    rw [h.form, ← h.unwoven]
    rfl
  unfold Procedure.unweave
  rw [h.dispatch?]
  simp only [List.length_map, kept, blocks, attrs]
  rw [h.form]
  rfl

end Assembled

/-! ## The whole procedure -/

/-- The code of an original block in a woven procedure.  The pieces from its number on hold
its statements, with the calls at its marks read back, and its terminator; the pieces behind
the first one are new blocks.  All of them have the handler of the block, and so has the
resume block of every call at the end of a piece. -/
structure Procedure.HoldsCode (w p : Procedure) (b : Block) : Prop where
  code : (w.pieces b.id).flatMap Block.readBack = b.statements
  positions : cutPositions 0 (w.pieces b.id) = cutSites b
  ends : (w.pieces b.id).getLast?.map Block.terminator = some b.terminator
  first : (w.pieces b.id).head?.map Block.id = some b.id
  others : ∀ c ∈ (w.pieces b.id).tail, p.blocks.length ≤ c.id.index
  handler : ∀ c ∈ w.pieces b.id, c.handler = b.handler
  resumes : ∀ c ∈ w.pieces b.id, ∀ dst func args state save next,
    c.terminator = .suspendCall dst func args state save next →
      ∃ resume, w.resumeBlock? c = some (b.resumption resume save dst next)

/-- What a woven procedure consists of, for the original blocks in their order: the pieces,
the resume blocks of the cuts and the dispatcher, each once.  The states of the pieces are
1, 2, and so on; each of them has one suspending call, one arm and one record, in this
order. -/
structure Procedure.ConsistsOf (w p : Procedure) (arms : List (StateId × BlockId)) : Prop where
  entry : w.block? w.entryBlock =
    some { Block.empty w.entryBlock with terminator := .dispatch p.entryBlock arms }
  blocks : w.blocks.Perm
    ((p.blocks.flatMap fun b => w.pieces b.id) ++
      (p.blocks.flatMap fun b => (w.pieces b.id).filterMap w.resumeBlock?) ++
      [{ Block.empty w.entryBlock with terminator := .dispatch p.entryBlock arms }])
  once : w.blocks.Nodup
  states : (p.blocks.flatMap fun b => w.pieceStates b.id).map StateId.index =
    List.range' 1 (siteCount p.blocks)
  calls : (w.suspensions.map fun call => call.1.index).Perm (List.range' 1 (siteCount p.blocks))
  led : arms.map (fun arm => arm.1.index) = List.range' 1 (siteCount p.blocks)
  records : w.states.map (fun s => (s.id, s.block)) = (StateId.entry, p.entryBlock) :: arms

namespace Assembled

variable (h : Assembled p live cut w)
include h

theorem holdsCode {b : Block} (mem : b ∈ p.blocks) : w.HoldsCode p b := by
  obtain ⟨part, own⟩ := h.cutApart_all.each b mem
  obtain ⟨first, more, form, number, new⟩ := own.numbers
  refine ⟨own.code, own.positions, own.ends, ?_, ?_, own.handler, own.resumes⟩
  · rw [form]
    exact congrArg some number
  · rw [form]
    exact new

theorem consistsOf : w.ConsistsOf p (cut.states.map fun s => (s.id, s.block)) := by
  have numbers := h.map_state_index
  constructor
  · exact h.block?_entry
  · exact h.blocks_perm
  · exact h.nodup_ids.of_map _
  · rw [h.cutApart_all.states, List.map_map]
    exact numbers
  · have perm := h.suspensions_perm.map StateId.index
    rw [List.map_map, List.map_map] at perm
    rw [← numbers]
    exact perm
  · rw [List.map_map]
    exact numbers
  · obtain ⟨reachable, slots, states⟩ := h.states_eq
    rw [states, List.map_map]
    rfl

end Assembled

/-- Weaving loses no code, doubles none and keeps its order: a woven procedure holds the code of
every original block, and it consists of nothing but these pieces, one resume block for each
cut and the dispatcher.  So the original can be had back. -/
theorem Procedure.weave_keeps_code {p : Procedure} {c : Classification} {woven : WovenProcedure}
    (valid : p.validate = .ok ()) (weaves : p.weave c = .ok (some woven)) :
    (∀ b ∈ p.blocks, woven.procedure.HoldsCode p b) ∧
    (∃ arms, woven.procedure.ConsistsOf p arms) ∧
    woven.procedure.unweave =
      { p with blocks := p.blocks.map Block.sortMarks, states := [] } := by
  obtain ⟨unwoven, body, form⟩ := resumableForm_of_weave weaves
  obtain ⟨live, cut, h⟩ := exists_assembled (sound_of_validate valid body) unwoven form
  exact ⟨fun b mem => h.holdsCode mem, ⟨_, h.consistsOf⟩, h.unweave_eq⟩

/-- Three calls, an assignment before the last one, in a block with a handler.  The marks are
out of order, and one of them is set twice. -/
def volley : Procedure :=
  let ask : Stmt := .call none ⟨retry.id, .static⟩ []
  { retry with
    id := ⟨"relay", "volley", "(int)"⟩
    blocks := [
      { Block.empty ⟨0⟩ with
        statements := [ask, ask, .assign ⟨0⟩ (.use (.const .unit)), ask]
        terminator := .goto ⟨1⟩
        handler := some ⟨⟨1⟩, ⟨0⟩⟩
        suspendSites := [3, 0, 1, 0] },
      { Block.empty ⟨1⟩ with terminator := .ret none }] }

/-- Cuts next to each other and at both ends of a block. -/
theorem Procedure.weave_keeps_code_volley :
    ∃ woven, volley.weave ⟨[(volley.id, .suspending)], [], []⟩ = .ok (some woven) ∧
      (∀ b ∈ volley.blocks, woven.procedure.HoldsCode volley b) ∧
      (∃ arms, woven.procedure.ConsistsOf volley arms) ∧
      woven.procedure.unweave =
        { volley with blocks := volley.blocks.map Block.sortMarks, states := [] } := by
  obtain ⟨woven, weaves⟩ : ∃ woven,
      volley.weave ⟨[(volley.id, .suspending)], [], []⟩ = .ok (some woven) := ⟨_, rfl⟩
  exact ⟨woven, weaves, weave_keeps_code (by decide) weaves⟩

end Resumable
