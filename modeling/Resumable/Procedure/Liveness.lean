import Resumable.Procedure.Graph
import Resumable.Ascending

/-!
# Liveness

A local is live at a point if some path from there reads it before writing it.
Paths follow the edges of the graph and also the exceptional ones: every
statement that can raise keeps alive what the handler of its block reads, apart
from the local that receives the raised value.

`Liveness.compute?` sweeps over the blocks from the last to the first, until
nothing changes.  Blocks are found by their numbers; a block or a handler with a
number out of range has no liveness.
-/

namespace Resumable

/-- A set of locals in ascending order. -/
abbrev LocalSet := List LocalId

/-- What is live at the start and at the end of each block, by block number. -/
structure Liveness where
  liveIn : List LocalSet
  liveOut : List LocalSet
  deriving DecidableEq, Inhabited

namespace Liveness

/-- The locals live at the start of a block. -/
def atStart (live : Liveness) (b : BlockId) : LocalSet :=
  live.liveIn.getD b.index []

/-- The locals live after the terminator of a block, on its normal edges. -/
def atEnd (live : Liveness) (b : BlockId) : LocalSet :=
  live.liveOut.getD b.index []

/-- What a raised value needs when it lands in a handler. -/
def forHandler (live : Liveness) (h : Handler) : LocalSet :=
  Ascending.diff (live.atStart h.target) [h.bind]

/-- The same for the handler that a block may have. -/
def onRaise (live : Liveness) (b : Block) : LocalSet :=
  match b.handler with
  | some h => live.forHandler h
  | none => []

/-- Everything that the successors of a block need. -/
def normalOut (live : Liveness) (b : Block) : LocalSet :=
  b.terminator.successors.foldl
    (fun set next => Ascending.union LocalId.index set (live.atStart next)) []

/-- The locals live before a statement, from those live after it. -/
def stepBack (raised : LocalSet) (stmt : Stmt) (after : LocalSet) : LocalSet :=
  let read := Ascending.union LocalId.index (Ascending.diff after stmt.defs) stmt.uses
  if stmt.canRaise then Ascending.union LocalId.index read raised else read

/-- The locals live before the terminator, from those live on its normal edges. -/
def beforeTerminator (raised : LocalSet) (t : Terminator) (after : LocalSet) : LocalSet :=
  let read := Ascending.union LocalId.index (Ascending.diff after t.def?.toList) t.uses
  if t.canRaise then Ascending.union LocalId.index read raised else read

/-- The locals live before the statements of a list, which end a block. -/
def before (live : Liveness) (b : Block) (statements : List Stmt) : LocalSet :=
  statements.foldr (stepBack (live.onRaise b))
    (beforeTerminator (live.onRaise b) b.terminator (live.normalOut b))

/-- The locals live after the statement at a position. -/
def after (live : Liveness) (b : Block) (index : Nat) : LocalSet :=
  live.before b (b.statements.drop (index + 1))

/-! ## The least solution -/

/-- Computes one block anew. -/
def update (b : Block) (live : Liveness) : Liveness :=
  { liveIn := live.liveIn.set b.id.index (live.before b b.statements)
    liveOut := live.liveOut.set b.id.index (live.normalOut b) }

/-- Computes every block anew, the last one first. -/
def sweep (blocks : List Block) (live : Liveness) : Liveness :=
  blocks.foldr update live

/-- Sweeps until nothing changes, a bounded number of times. -/
def settle (blocks : List Block) : Nat → Liveness → Liveness
  | 0, live => live
  | rounds + 1, live =>
    let next := sweep blocks live
    if next = live then live else settle blocks rounds next

/-- The locals that the code of a block reads, each as often as it is read. -/
def reads (b : Block) : List LocalId :=
  b.statements.flatMap Stmt.uses ++ b.terminator.uses

/-- Whether the number of the block and that of its handler are in range. -/
def inRange (size : Nat) (b : Block) : Bool :=
  b.id.index < size && b.handler.all fun h => h.target.index < size

/-- Nothing is live anywhere. -/
def bottom (size : Nat) : Liveness :=
  { liveIn := List.replicate size [], liveOut := List.replicate size [] }

/-- The least liveness of a procedure.  Every sweep but the last adds a local
that is read somewhere to one of two sets of a block, which bounds the sweeps. -/
def compute? (p : Procedure) : Option Liveness :=
  let size := p.blocks.length
  if p.blocks.all (inRange size) then
    let rounds := 2 * size * (p.blocks.flatMap reads).length + 2
    some (settle p.blocks rounds (bottom size))
  else none

end Liveness

end Resumable
