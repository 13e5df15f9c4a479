import Resumable.Weave.Form

/-!
# Cutting blocks at suspending calls

A block is cut right after every marked call.  The call becomes a `suspendCall`
terminator with a fresh state and the locals that must survive it.  The state
gets a resume block, which restores those locals, takes the completion of the
call and goes on to the continuation.

The first piece of a block keeps its number, so edges into the block stay valid.
Every piece, and every resume block, keeps the handler of the block.
-/

namespace Resumable

/-- The blocks and states that came out of a cut, and the next free numbers. -/
structure Cut where
  blocks : List Block
  states : List ResumptionState
  nextBlock : Nat
  nextState : Nat
  deriving DecidableEq, Inhabited

/-- A part of a block under the handler of the whole. -/
def Block.piece (b : Block) (id : BlockId) (statements : List Stmt) (terminator : Terminator) :
    Block :=
  { id, statements, terminator, handler := b.handler, suspendSites := [] }

/-- The block that takes up a call after it was suspended. -/
def Block.resumption (b : Block) (id : BlockId) (save : List LocalId) (dst : Option LocalId)
    (next : BlockId) : Block :=
  b.piece id [.restore save, .resume dst] (.goto next)

/-- The locals that must survive the call at a position: what the code after it
reads, apart from the destination, and what the handler reads if the call
raises. -/
def Liveness.saveSet (live : Liveness) (b : Block) (site : Nat) (dst : Option LocalId) :
    List LocalId :=
  Ascending.union LocalId.index (Ascending.diff (live.after b site) dst.toList)
    (live.onRaise b)

/-- The record of a saved local. -/
def Procedure.slot (p : Procedure) (id : LocalId) : LiveSlot :=
  match p.local? id with
  | some l => { localId := id, name := l.displayName, ty := l.ty }
  | none => { localId := id, name := id.text, ty := .any }

/-- Cuts a block from a statement on, at the positions of a list.  The number is
that of the first piece. -/
def cutFrom (p : Procedure) (live : Liveness) (b : Block) :
    BlockId → Nat → List Nat → Nat → Nat → Except FormDefect Cut
  | id, start, [], nextBlock, nextState =>
    .ok { blocks := [b.piece id (b.statements.drop start) b.terminator], states := [],
          nextBlock, nextState }
  | id, start, site :: sites, nextBlock, nextState =>
    match b.statements[site]? with
    | some (.call dst func args) => do
      let save := live.saveSet b site dst
      let state := StateId.ofIndex nextState
      let next := BlockId.ofIndex nextBlock
      let resume := BlockId.ofIndex (nextBlock + 1)
      let more ← cutFrom p live b next (site + 1) sites (nextBlock + 2) (nextState + 1)
      return { more with
        blocks :=
          b.piece id ((b.statements.take site).drop start)
            (.suspendCall dst func args state save next) ::
          b.resumption resume save dst next :: more.blocks
        states :=
          { id := state, block := resume, live := save.map p.slot, successors := [] } ::
            more.states }
    | _ => .error (.notACall b.id site)

/-- Cuts a block at its marked calls. -/
def cutBlock (p : Procedure) (live : Liveness) (b : Block) (nextBlock nextState : Nat) :
    Except FormDefect Cut :=
  cutFrom p live b b.id 0 (Ascending.ofList id b.suspendSites) nextBlock nextState

/-- Cuts the blocks of a list. -/
def cutBlocks (p : Procedure) (live : Liveness) :
    List Block → Nat → Nat → Except FormDefect Cut
  | [], nextBlock, nextState => .ok { blocks := [], states := [], nextBlock, nextState }
  | b :: rest, nextBlock, nextState => do
    let first ← cutBlock p live b nextBlock nextState
    let more ← cutBlocks p live rest first.nextBlock first.nextState
    return { more with
      blocks := first.blocks ++ more.blocks
      states := first.states ++ more.states }

end Resumable
