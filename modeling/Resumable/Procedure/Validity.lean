import Resumable.Procedure.Text

/-!
# Well-formed graphs

Before its body is trusted, a procedure is checked: every block stands at the
position that its number gives, and every edge, local and entry point exists.
Code that restores or resumes frames may stand in resumable procedures only.

`Procedure.validate` reports the first defect in block order.  Within a block
the edges come first, then the statements, then the terminator.
-/

namespace Resumable

/-- A structural defect of a procedure. -/
inductive GraphError where
  | empty
  | missingEntry (entry : BlockId)
  | misnumberedBlock (index : Nat) (found : BlockId)
  | danglingEdge (source target : BlockId)
  | undeclaredLocal (block : BlockId) (id : LocalId)
  | resumptionCode (block : BlockId)
  deriving DecidableEq, Inhabited

def GraphError.message : GraphError → String
  | .empty => "procedure has a body but no blocks"
  | .missingEntry entry => "entry block " ++ entry.text ++ " does not exist"
  | .misnumberedBlock index found =>
    "block at index " ++ toString index ++ " is labelled " ++ found.text
  | .danglingEdge source target => source.text ++ " jumps to missing block " ++ target.text
  | .undeclaredLocal block id => block.text ++ " refers to undeclared local " ++ id.text
  | .resumptionCode block => "unwoven procedure contains resumption code in " ++ block.text

namespace Procedure

/-- An edge has to lead to a block of the procedure. -/
def checkEdge (p : Procedure) (source target : BlockId) : Except GraphError Unit :=
  if target.index < p.blocks.length then .ok () else .error (.danglingEdge source target)

/-- Whether the local is declared at its position. -/
def declares (p : Procedure) (id : LocalId) : Bool :=
  match p.local? id with
  | some l => l.id == id
  | none => false

def checkLocal (p : Procedure) (block : BlockId) (id : LocalId) : Except GraphError Unit :=
  if p.declares id then .ok () else .error (.undeclaredLocal block id)

/-- Resumption code needs a procedure in resumable form. -/
def checkWoven (p : Procedure) (block : BlockId) : Except GraphError Unit :=
  if p.attrs.woven then .ok () else .error (.resumptionCode block)

/-- Whether the statement restores or resumes a frame. -/
def isResumption : Stmt → Bool
  | .restore _ => true
  | .resume _ => true
  | _ => false

/-- Destinations are checked before operands. -/
def checkStmt (p : Procedure) (block : BlockId) (stmt : Stmt) : Except GraphError Unit := do
  if isResumption stmt then p.checkWoven block
  (stmt.defs ++ stmt.uses).forM (p.checkLocal block)

def checkTerminator (p : Procedure) (block : BlockId) (t : Terminator) :
    Except GraphError Unit := do
  match t with
  | .dispatch .. => p.checkWoven block
  | .suspendCall .. => p.checkWoven block
  | _ => pure ()
  t.def?.toList.forM (p.checkLocal block)
  t.uses.forM (p.checkLocal block)

def checkHandler (p : Procedure) (block : BlockId) (h : Handler) : Except GraphError Unit := do
  p.checkEdge block h.target
  p.checkLocal block h.bind

def checkBlock (p : Procedure) (b : Block) : Except GraphError Unit := do
  b.terminator.successors.forM (p.checkEdge b.id)
  b.handler.toList.forM (p.checkHandler b.id)
  b.statements.forM (p.checkStmt b.id)
  p.checkTerminator b.id b.terminator

/-- Checks the blocks from a position on. -/
def checkBlocks (p : Procedure) : Nat → List Block → Except GraphError Unit
  | _, [] => .ok ()
  | index, b :: rest => do
    if b.id.index = index then pure () else throw (.misnumberedBlock index b.id)
    p.checkBlock b
    p.checkBlocks (index + 1) rest

/-- Whether every edge, local and entry point exists.  A declaration without a
body has nothing to check. -/
def validate (p : Procedure) : Except GraphError Unit := do
  if p.attrs.isAbstract then return
  if p.blocks.isEmpty then throw .empty
  if p.entryBlock.index < p.blocks.length then pure () else throw (.missingEntry p.entryBlock)
  p.checkBlocks 0 p.blocks

end Procedure

end Resumable
