import Resumable.Procedure.Graph

/-!
# Building procedures

A procedure under construction, with a current block that statements go to.  A
builder hands out the numbers of blocks and locals in ascending order, so that
each is the position of the thing it names.  A step on a block or a local that does
not exist gives `none`.
-/

namespace Resumable

structure BlockBuilder where
  procedure : Procedure
  currentBlock : BlockId
  nextLocal : Nat
  nextBlock : Nat
  deriving DecidableEq, Inhabited

namespace BlockBuilder

/-- A procedure with one empty block, the entry. -/
def start (id : ProcId) (retTy : Ty) : BlockBuilder :=
  let entryBlock := BlockId.ofIndex 0
  { procedure :=
      { id, params := [], retTy, locals := [], blocks := [Block.empty entryBlock], entryBlock,
        attrs := .plain, states := [] }
    currentBlock := entryBlock
    nextLocal := 0
    nextBlock := 1 }

/-- The procedure as built so far. -/
def finish (b : BlockBuilder) : Procedure := b.procedure

/-- A declaration without a body. -/
def declaration (id : ProcId) (retTy : Ty) : Procedure :=
  { (start id retTy).finish with
    blocks := []
    attrs := { ProcAttrs.plain with isAbstract := true } }

/-! ## Blocks -/

/-- A new empty block; the current block stays. -/
def createBlock (b : BlockBuilder) : BlockId × BlockBuilder :=
  let id := BlockId.ofIndex b.nextBlock
  (id, { b with
    procedure := { b.procedure with blocks := b.procedure.blocks ++ [Block.empty id] }
    nextBlock := b.nextBlock + 1 })

def switchTo (b : BlockBuilder) (block : BlockId) : BlockBuilder :=
  { b with currentBlock := block }

/-- The builder with its current block changed. -/
def modifyBlock? (b : BlockBuilder) (f : Block → Block) : Option BlockBuilder :=
  if b.currentBlock.index < b.procedure.blocks.length then
    some { b with
      procedure := { b.procedure with
        blocks := b.procedure.blocks.modify b.currentBlock.index f } }
  else none

def pushStmt? (b : BlockBuilder) (stmt : Stmt) : Option BlockBuilder :=
  b.modifyBlock? fun block => { block with statements := block.statements ++ [stmt] }

def assign? (b : BlockBuilder) (dst : LocalId) (rvalue : RValue) : Option BlockBuilder :=
  b.pushStmt? (.assign dst rvalue)

def call? (b : BlockBuilder) (dst : Option LocalId) (func : FunctionRef)
    (args : List Operand) : Option BlockBuilder :=
  b.pushStmt? (.call dst func args)

def terminate? (b : BlockBuilder) (terminator : Terminator) : Option BlockBuilder :=
  b.modifyBlock? fun block => { block with terminator }

/-- Puts the current block under a handler. -/
def setHandler? (b : BlockBuilder) (target : BlockId) (bind : LocalId) : Option BlockBuilder :=
  b.modifyBlock? fun block => { block with handler := some { target, bind } }

/-- Whether the current block still has its first terminator. -/
def unterminated? (b : BlockBuilder) : Option Bool :=
  (b.procedure.block? b.currentBlock).map fun block => block.terminator == .unreachable

/-! ## Locals -/

def pushLocal (b : BlockBuilder) (name : Option String) (ty : Ty) (isParam : Bool) :
    LocalId × BlockBuilder :=
  let id := LocalId.ofIndex b.nextLocal
  (id, { b with
    procedure := { b.procedure with
      locals := b.procedure.locals ++ [{ id, name, ty, isParam }] }
    nextLocal := b.nextLocal + 1 })

/-- A local without a name. -/
def addTemp (b : BlockBuilder) (ty : Ty) : LocalId × BlockBuilder :=
  b.pushLocal none ty false

def addLocal (b : BlockBuilder) (name : String) (ty : Ty) : LocalId × BlockBuilder :=
  b.pushLocal (some name) ty false

/-- A parameter is a local that is also listed among the parameters, as it is found at its
number. -/
def addParam? (b : BlockBuilder) (name : String) (ty : Ty) : Option (LocalId × BlockBuilder) :=
  let (id, b) := b.pushLocal (some name) ty true
  (b.procedure.local? id).map fun l =>
    (id, { b with procedure := { b.procedure with params := b.procedure.params ++ [l] } })

/-! ## Attributes -/

def markSuspending (b : BlockBuilder) : BlockBuilder :=
  { b with
    procedure := { b.procedure with attrs := { b.procedure.attrs with suspendMarker := true } } }

def markBridge (b : BlockBuilder) : BlockBuilder :=
  { b with
    procedure := { b.procedure with attrs := { b.procedure.attrs with bridge := true } } }

end BlockBuilder

end Resumable
