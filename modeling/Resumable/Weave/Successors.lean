import Resumable.Procedure.Graph
import Resumable.Ascending

/-!
# States reachable without another suspension

From a block, control reaches other blocks on normal and handler edges.  A walk
ends at a suspending call: it notes the state of the call and goes on only to
the handler.
-/

namespace Resumable

/-- Where a walk goes from a block. -/
def Block.walkEdges (b : Block) : List BlockId :=
  b.handler.toList.map Handler.target ++
    match b.terminator with
    | .suspendCall .. => []
    | t => t.successors

/-- The state of the suspending call that ends a block. -/
def Block.suspendState? (b : Block) : Option StateId :=
  match b.terminator with
  | .suspendCall _ _ _ state _ _ => some state
  | _ => none

namespace Procedure

/-- The edges out of a block; none out of a number without a block. -/
def walkEdges (p : Procedure) (id : BlockId) : List BlockId :=
  match p.block? id with
  | some b => b.walkEdges
  | none => []

/-- The blocks met by a walk that still has to visit the blocks of a list.  The
first argument bounds the steps. -/
def walk (p : Procedure) : Nat → List BlockId → List BlockId → List BlockId
  | 0, _, seen => seen
  | _ + 1, [], seen => seen
  | fuel + 1, id :: rest, seen =>
    if id ∈ seen then p.walk fuel rest seen
    else p.walk fuel (rest ++ p.walkEdges id) (id :: seen)

/-- Every edge is walked once at most. -/
def walkBound (p : Procedure) : Nat :=
  (p.blocks.flatMap Block.walkEdges).length + 2

/-- The states of the suspending calls that a walk from a block meets. -/
def reachableStates (p : Procedure) (start : BlockId) : List StateId :=
  Ascending.ofList StateId.index
    ((p.walk p.walkBound [start] []).filterMap fun id =>
      (p.block? id).bind Block.suspendState?)

end Procedure

end Resumable
