import Resumable.Procedure.Basic

/-!
# The graph of a procedure

What can be read off a procedure without running it: its blocks, locals and
states by number, the edges of a terminator, the locals that code reads and
writes, and the calls that it makes.
-/

namespace Resumable

namespace Stmt

/-- The locals that the statement writes. -/
def defs : Stmt → List LocalId
  | .assign dst _ => [dst]
  | .call dst _ _ => dst.toList
  | .restore slots => slots
  | .resume dst => dst.toList

/-- The locals that the statement reads. -/
def uses : Stmt → List LocalId
  | .assign _ rvalue => rvalue.operands.filterMap Operand.local?
  | .call _ _ args => args.filterMap Operand.local?
  | .restore _ => []
  | .resume _ => []

/-- The target of the statement, if it is a call. -/
def callee? : Stmt → Option FunctionRef
  | .call _ func _ => some func
  | _ => none

/-- Whether the statement can leave the block through its handler. -/
def canRaise : Stmt → Bool
  | .restore _ => false
  | _ => true

end Stmt

namespace Terminator

/-- The blocks that control may go to when nothing is raised. -/
def successors : Terminator → List BlockId
  | .ret _ => []
  | .goto target => [target]
  | .branch _ thenBlock elseBlock => [thenBlock, elseBlock]
  | .switch _ cases fallback => cases.map Prod.snd ++ [fallback]
  | .throw _ => []
  | .unreachable => []
  | .dispatch fresh states => fresh :: states.map Prod.snd
  | .suspendCall _ _ _ _ _ next => [next]

/-- The locals that the terminator reads. -/
def uses : Terminator → List LocalId
  | .ret value => (value.bind Operand.local?).toList
  | .goto _ => []
  | .branch cond _ _ => cond.local?.toList
  | .switch value _ _ => value.local?.toList
  | .throw value => value.local?.toList
  | .unreachable => []
  | .dispatch _ _ => []
  | .suspendCall _ _ args _ save _ => args.filterMap Operand.local? ++ save

/-- The local that the terminator writes before control goes on. -/
def def? : Terminator → Option LocalId
  | .suspendCall dst _ _ _ _ _ => dst
  | _ => none

/-- The target of the terminator, if it is a call. -/
def callee? : Terminator → Option FunctionRef
  | .suspendCall _ func _ _ _ _ => some func
  | _ => none

/-- Whether the terminator can leave the block through its handler. -/
def canRaise : Terminator → Bool
  | .throw _ => true
  | .suspendCall .. => true
  | _ => false

end Terminator

namespace Local

/-- The declared name, or the number when the local has none. -/
def displayName (l : Local) : String :=
  l.name.getD s!"_{l.id.val}"

end Local

namespace Block

/-- The calls of the block, statements first. -/
def calls (b : Block) : List FunctionRef :=
  b.statements.filterMap Stmt.callee? ++ b.terminator.callee?.toList

/-- Whether a call of the block may suspend. -/
def suspends (b : Block) : Bool :=
  !b.suspendSites.isEmpty

end Block

namespace Procedure

/-- The block at the position that the number gives. -/
def block? (p : Procedure) (id : BlockId) : Option Block :=
  p.blocks[id.index]?

/-- The local at the position that the number gives. -/
def local? (p : Procedure) (id : LocalId) : Option Local :=
  p.locals[id.index]?

/-- The first state recorded under a number. -/
def state? (p : Procedure) (id : StateId) : Option ResumptionState :=
  p.states.find? (·.id == id)

/-- Every call of the procedure, in block order. -/
def calls (p : Procedure) : List FunctionRef :=
  p.blocks.flatMap Block.calls

def hasBody (p : Procedure) : Bool :=
  !p.attrs.isAbstract && !p.blocks.isEmpty

end Procedure

end Resumable
