import Mathlib.Logic.Relation
import Resumable.Proofs.Procedure.Liveness

/-!
# Liveness by paths

What it means that a local is live at a point of the code: some path from there reads it
before anything writes it (`Procedure.Needs`).  A path follows the statements of a block,
the normal edges of its terminator and, wherever something can be raised, the edge to the
handler.

`Liveness.compute?` finds exactly these locals (`Liveness.compute?_exact`).  It finds no more
because what paths need is kept by every update, and no less because where nothing changes
any more, each edge of a path is accounted for.
-/

namespace Resumable

/-- A point of the code: in front of a statement of a block or, behind the last one, in
front of the terminator. -/
structure Point where
  block : BlockId
  index : Nat
  deriving DecidableEq

/-- The first point of a block. -/
def BlockId.start (id : BlockId) : Point := ⟨id, 0⟩

namespace Procedure

variable {p : Procedure} {b : Block} {i : Nat} {s : Stmt} {l : LocalId}

/-- An edge of the code that does not write a local. -/
inductive Spares (p : Procedure) (l : LocalId) : Point → Point → Prop
  /-- A statement takes effect. -/
  | step {id : BlockId} {b : Block} {i : Nat} {s : Stmt} (found : p.block? id = some b)
      (stmt : b.statements[i]? = some s) (kept : l ∉ s.defs) : Spares p l ⟨id, i⟩ ⟨id, i + 1⟩
  /-- A statement raises before it takes effect.  Only restoring slots never raises. -/
  | raise {id : BlockId} {b : Block} {i : Nat} {s : Stmt} {h : Handler}
      (found : p.block? id = some b) (stmt : b.statements[i]? = some s)
      (raises : ∀ slots, s ≠ .restore slots) (handler : b.handler = some h) (kept : l ≠ h.bind) :
      Spares p l ⟨id, i⟩ h.target.start
  /-- Control goes on to another block. -/
  | leave {id next : BlockId} {b : Block} (found : p.block? id = some b)
      (edge : next ∈ b.terminator.successors) (kept : l ∉ b.terminator.def?) :
      Spares p l ⟨id, b.statements.length⟩ next.start
  /-- A value is thrown. -/
  | throw {id : BlockId} {b : Block} {value : Operand} {h : Handler}
      (found : p.block? id = some b) (last : b.terminator = .throw value)
      (handler : b.handler = some h) (kept : l ≠ h.bind) :
      Spares p l ⟨id, b.statements.length⟩ h.target.start
  /-- A suspending call raises, before its destination is written. -/
  | fail {id next : BlockId} {b : Block} {dst : Option LocalId} {func : FunctionRef}
      {args : List Operand} {state : StateId} {save : List LocalId} {h : Handler}
      (found : p.block? id = some b)
      (last : b.terminator = .suspendCall dst func args state save next)
      (handler : b.handler = some h) (kept : l ≠ h.bind) :
      Spares p l ⟨id, b.statements.length⟩ h.target.start

/-- The code reads a local at a point. -/
inductive Reads (p : Procedure) (l : LocalId) : Point → Prop
  | stmt {id : BlockId} {b : Block} {i : Nat} {s : Stmt} (found : p.block? id = some b)
      (stmt : b.statements[i]? = some s) (use : l ∈ s.uses) : Reads p l ⟨id, i⟩
  | terminator {id : BlockId} {b : Block} (found : p.block? id = some b)
      (use : l ∈ b.terminator.uses) : Reads p l ⟨id, b.statements.length⟩

/-- Some path from a point reads a local before anything writes it. -/
def Needs (p : Procedure) (l : LocalId) (place : Point) : Prop :=
  ∃ last, Relation.ReflTransGen (p.Spares l) place last ∧ p.Reads l last

theorem Reads.needs {place : Point} (h : p.Reads l place) : p.Needs l place :=
  ⟨place, .refl, h⟩

theorem Spares.needs {place next : Point} (h : p.Spares l place next) (needs : p.Needs l next) :
    p.Needs l place := by
  obtain ⟨last, path, reads⟩ := needs
  exact ⟨last, .head h path, reads⟩

theorem Spares.raiseStmt {id : BlockId} {h : Handler} (found : p.block? id = some b)
    (stmt : b.statements[i]? = some s) (raises : s.canRaise = true) (handler : b.handler = some h)
    (kept : l ≠ h.bind) : p.Spares l ⟨id, i⟩ h.target.start := by
  refine .raise found stmt (fun slots same => ?_) handler kept
  rw [same] at raises
  cases raises

theorem Spares.raiseEnd {id : BlockId} {h : Handler} (found : p.block? id = some b)
    (raises : b.terminator.canRaise = true) (handler : b.handler = some h) (kept : l ≠ h.bind) :
    p.Spares l ⟨id, b.statements.length⟩ h.target.start := by
  cases last : b.terminator with
  | throw value => exact .throw found last handler kept
  | suspendCall dst func args state save next => exact .fail found last handler kept
  | _ =>
    rw [last] at raises
    cases raises

end Procedure

namespace Liveness

variable {p : Procedure} {live : Liveness} {b : Block} {i : Nat} {s : Stmt} {l : LocalId}

theorem before_drop (stmt : b.statements[i]? = some s) :
    live.before b (b.statements.drop i) =
      stepBack (live.onRaise b) s (live.before b (b.statements.drop (i + 1))) := by
  obtain ⟨lt, same⟩ := List.getElem?_eq_some_iff.1 stmt
  rw [List.drop_eq_getElem_cons lt, same, before_cons]

theorem before_end : live.before b (b.statements.drop b.statements.length) =
    beforeTerminator (live.onRaise b) b.terminator (live.normalOut b) := by
  rw [List.drop_length, before_nil]

/-! ## Nothing else is live -/

/-- Everything that is live at the start of a block is needed there. -/
abbrev Needed (p : Procedure) (live : Liveness) : Prop :=
  live.Holds fun id l => p.Needs l id.start

theorem Needed.normalOut (h : Needed p live) (found : p.block? b.id = some b)
    (mem : l ∈ live.normalOut b) (kept : l ∉ b.terminator.def?) :
    p.Needs l ⟨b.id, b.statements.length⟩ := by
  obtain ⟨next, edge, start⟩ := mem_normalOut.1 mem
  exact (Procedure.Spares.leave found edge kept).needs (h next l start)

/-- Everything that is live in front of some of the last statements of a block is needed
there. -/
theorem Needed.before (h : Needed p live) (found : p.block? b.id = some b)
    (le : i ≤ b.statements.length) (mem : l ∈ live.before b (b.statements.drop i)) :
    p.Needs l ⟨b.id, i⟩ := by
  generalize left : b.statements.length - i = steps
  induction steps generalizing i with
  | zero =>
    obtain rfl : i = b.statements.length := by omega
    rw [before_end, mem_beforeTerminator] at mem
    rcases mem with ⟨after, kept⟩ | use | ⟨raises, raised⟩
    · exact h.normalOut found after kept
    · exact (Procedure.Reads.terminator found use).needs
    · obtain ⟨handler, here, start, kept⟩ := mem_onRaise.1 raised
      exact (Procedure.Spares.raiseEnd found raises here kept).needs (h _ l start)
  | succ steps ih =>
    have stmt : b.statements[i]? = some b.statements[i] := List.getElem?_eq_getElem (by omega)
    rw [before_drop stmt, mem_stepBack] at mem
    rcases mem with ⟨after, kept⟩ | use | ⟨raises, raised⟩
    · exact (Procedure.Spares.step found stmt kept).needs (ih (by omega) after (by omega))
    · exact (Procedure.Reads.stmt found stmt use).needs
    · obtain ⟨handler, here, start, kept⟩ := mem_onRaise.1 raised
      exact (Procedure.Spares.raiseStmt found stmt raises here kept).needs (h _ l start)

/-- Only what is needed is live in the end. -/
theorem needed_of_compute? (sound : p.Sound) (computed : compute? p = some live) :
    Needed p live :=
  Holds.of_compute? computed fun _ needed _ block _ mem =>
    Needed.before needed (sound.block?_id block) (Nat.zero_le _) mem

/-! ## Nothing is missed -/

/-- What is read at a point is live there. -/
theorem mem_before_of_reads {place : Point} (reads : p.Reads l place)
    (found : p.block? place.block = some b) :
    l ∈ live.before b (b.statements.drop place.index) := by
  cases reads with
  | stmt here stmt use =>
    obtain rfl := Option.some.inj (here.symm.trans found)
    rw [before_drop stmt, mem_stepBack]
    exact Or.inr (Or.inl use)
  | terminator here use =>
    obtain rfl := Option.some.inj (here.symm.trans found)
    rw [before_end, mem_beforeTerminator]
    exact Or.inr (Or.inl use)

section Solved

variable (sound : p.Sound) (solves : live.Solves p)
include sound solves

theorem before_start {id : BlockId} (found : p.block? id = some b) :
    live.before b (b.statements.drop 0) = live.atStart id := by
  have block : b ∈ p.blocks := List.mem_of_getElem? found
  have same : b.id = id := BlockId.index_injective (sound.numbered _ _ found)
  rw [List.drop_zero, ← same, solves.atStart b block]

/-- What is live behind an edge that does not write it is live in front of the edge. -/
theorem mem_before_of_spares {place next : Point} (edge : p.Spares l place next)
    (found : p.block? place.block = some b)
    (after : ∀ c, p.block? next.block = some c →
      l ∈ live.before c (c.statements.drop next.index)) :
    l ∈ live.before b (b.statements.drop place.index) := by
  have block : b ∈ p.blocks := List.mem_of_getElem? found
  have start : ∀ {id : BlockId}, next = id.start → id.index < p.blocks.length →
      l ∈ live.atStart id := by
    intro id same lt
    subst same
    obtain ⟨c, -, there, -⟩ := sound.block?_of_lt lt
    exact before_start sound solves there ▸ after c there
  have raised : ∀ {h : Handler}, next = h.target.start → b.handler = some h → l ≠ h.bind →
      l ∈ live.onRaise b := fun same handler kept =>
    mem_onRaise.2 ⟨_, handler, start same ((sound.blocks b block).handler _ handler).1, kept⟩
  cases edge with
  | step here stmt kept =>
    obtain rfl := Option.some.inj (here.symm.trans found)
    rw [before_drop stmt, mem_stepBack]
    exact Or.inl ⟨after _ found, kept⟩
  | @raise _ _ _ s _ here stmt raises handler kept =>
    obtain rfl := Option.some.inj (here.symm.trans found)
    rw [before_drop stmt, mem_stepBack]
    refine Or.inr (Or.inr ⟨?_, raised rfl handler kept⟩)
    cases s with
    | restore slots => exact absurd rfl (raises slots)
    | _ => rfl
  | leave here edge kept =>
    obtain rfl := Option.some.inj (here.symm.trans found)
    rw [before_end, mem_beforeTerminator]
    exact Or.inl ⟨mem_normalOut.2 ⟨_, edge, start rfl ((sound.blocks _ block).edges _ edge)⟩, kept⟩
  | throw here last handler kept =>
    obtain rfl := Option.some.inj (here.symm.trans found)
    rw [before_end, mem_beforeTerminator, last]
    exact Or.inr (Or.inr ⟨rfl, raised rfl handler kept⟩)
  | fail here last handler kept =>
    obtain rfl := Option.some.inj (here.symm.trans found)
    rw [before_end, mem_beforeTerminator, last]
    exact Or.inr (Or.inr ⟨rfl, raised rfl handler kept⟩)

/-- Everything that is needed is live.  The induction is on the path, from its end. -/
theorem mem_before_of_needs {place : Point} (needs : p.Needs l place)
    (found : p.block? place.block = some b) :
    l ∈ live.before b (b.statements.drop place.index) := by
  obtain ⟨last, path, reads⟩ := needs
  induction path using Relation.ReflTransGen.head_induction_on generalizing b with
  | refl => exact mem_before_of_reads reads found
  | head edge _ ih => exact mem_before_of_spares sound solves edge found fun c there => ih there

end Solved

/-! ## Liveness is exact -/

/-- What is live at a point within a block is exactly what is needed there. -/
theorem mem_before_iff (sound : p.Sound) (computed : compute? p = some live)
    (solves : live.Solves p) (block : b ∈ p.blocks) (le : i ≤ b.statements.length) :
    l ∈ live.before b (b.statements.drop i) ↔ p.Needs l ⟨b.id, i⟩ :=
  ⟨(needed_of_compute? sound computed).before (sound.block?_id block) le,
    fun needs => mem_before_of_needs sound solves needs (sound.block?_id block)⟩

/-- The liveness of a valid procedure with a body: the sweeps come to rest, and then a local
is live at a point exactly if some path from there reads it before anything writes it. -/
theorem compute?_exact (p : Procedure) (valid : p.validate = .ok ()) (body : p.hasBody = true) :
    ∃ live, compute? p = some live ∧
      (∃ rounds, live = (sweep p.blocks)^[rounds] (bottom p.blocks.length)) ∧
      sweep p.blocks live = live ∧
      ∀ b ∈ p.blocks,
        (∀ l, l ∈ live.atStart b.id ↔ p.Needs l b.id.start) ∧
        (∀ l, l ∈ live.atEnd b.id ↔ ∃ next ∈ b.terminator.successors, p.Needs l next.start) ∧
        ∀ i < b.statements.length, ∀ l, l ∈ live.after b i ↔ p.Needs l ⟨b.id, i + 1⟩ := by
  have sound := Procedure.sound_of_validate valid body
  obtain ⟨live, computed, bounded, fixed⟩ := compute?_settled sound
  have solves := bounded.solves sound fixed
  have start : ∀ b ∈ p.blocks, ∀ l, l ∈ live.atStart b.id ↔ p.Needs l b.id.start := by
    intro b block l
    rw [← before_start sound solves (sound.block?_id block)]
    exact mem_before_iff sound computed solves block (Nat.zero_le _)
  obtain ⟨rounds, same⟩ := iterate_of_compute? computed
  refine ⟨live, computed, ⟨rounds, same.symm⟩, fixed, fun b block => ⟨start b block, ?_, ?_⟩⟩
  · intro l
    rw [bounded.atEnd sound fixed block, mem_normalOut]
    refine exists_congr fun next => and_congr_right fun edge => ?_
    obtain ⟨c, there, -, rfl⟩ := sound.block?_of_lt ((sound.blocks b block).edges next edge)
    exact start c there l
  · intro i lt l
    exact mem_before_iff sound computed solves block lt

end Liveness

/-- Makes a call again until the answer says that it is enough.  Where the call raises, the
argument is the result. -/
def retry : Procedure :=
  { id := ⟨"Retry", "retry", "(any)->any"⟩, params := [⟨⟨0⟩, some "other", .any, true⟩]
    retTy := .any
    locals := [⟨⟨0⟩, some "other", .any, true⟩, ⟨⟨1⟩, some "enough", .bool, false⟩,
      ⟨⟨2⟩, some "error", .any, false⟩]
    blocks := [
      { Block.empty ⟨0⟩ with
        statements := [.call (some ⟨1⟩) ⟨⟨"Retry", "attempt", "()->bool"⟩, .static⟩ []]
        terminator := .branch (.local ⟨1⟩) ⟨1⟩ ⟨0⟩
        handler := some ⟨⟨2⟩, ⟨2⟩⟩ },
      { Block.empty ⟨1⟩ with terminator := .ret (some (.local ⟨1⟩)) },
      { Block.empty ⟨2⟩ with terminator := .ret (some (.local ⟨0⟩)) }]
    entryBlock := ⟨0⟩, attrs := .plain, states := [] }

/-- The argument is needed behind the call, since the next round may raise; the answer of the
call is not needed in front of it. -/
theorem Liveness.exact_retry : retry.validate = .ok () ∧ retry.hasBody = true ∧
    retry.Needs ⟨0⟩ ⟨⟨0⟩, 1⟩ ∧ ¬ retry.Needs ⟨1⟩ ⟨⟨0⟩, 0⟩ := by
  have valid : retry.validate = .ok () := by decide
  have body : retry.hasBody = true := by decide
  obtain ⟨live, computed, -, -, exact⟩ := Liveness.compute?_exact retry valid body
  have found : Liveness.compute? retry =
      some ⟨[[⟨0⟩], [⟨1⟩], [⟨0⟩]], [[⟨0⟩, ⟨1⟩], [], []]⟩ := by decide
  obtain rfl := Option.some.inj (computed.symm.trans found)
  obtain ⟨start, -, after⟩ := exact retry.blocks[0] (by decide)
  exact ⟨valid, body, (after 0 (by decide) _).1 (by decide),
    fun needs => absurd ((start _).2 needs) (by decide)⟩

end Resumable
