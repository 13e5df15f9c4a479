/-!
# Procedures

The code that this library analyses, weaves and runs.  A procedure is a
control-flow graph: a list of blocks, each a list of statements that ends in a
terminator, over numbered locals.  A block may name a handler, the block that
takes over when one of its statements raises.

A procedure may be written in resumable form.  It then starts at a `dispatch`
terminator, its suspending calls are `suspendCall` terminators that save locals
into a frame, and its resume blocks begin with a `restore` statement that loads
those locals again.

This module holds the types only.
-/

namespace Resumable

/-! ## Names and numbers -/

/-- The number of a block, its index in the procedure. -/
structure BlockId where
  val : UInt32
  deriving DecidableEq, Inhabited

/-- The number of a local, its index in the procedure. -/
structure LocalId where
  val : UInt32
  deriving DecidableEq, Inhabited

/-- The number of a resumption state.  State 0 is fresh entry. -/
structure StateId where
  val : UInt32
  deriving DecidableEq, Inhabited

namespace BlockId

/-- The position of the block in the block list. -/
def index (b : BlockId) : Nat := b.val.toNat

/-- The block at a position; positions wrap at 32 bits. -/
def ofIndex (n : Nat) : BlockId := ⟨UInt32.ofNat n⟩

end BlockId

namespace LocalId

/-- The position of the local in the list of locals. -/
def index (l : LocalId) : Nat := l.val.toNat

/-- The local at a position; positions wrap at 32 bits. -/
def ofIndex (n : Nat) : LocalId := ⟨UInt32.ofNat n⟩

end LocalId

namespace StateId

/-- The number of the state. -/
def index (s : StateId) : Nat := s.val.toNat

/-- The state with a number; numbers wrap at 32 bits. -/
def ofIndex (n : Nat) : StateId := ⟨UInt32.ofNat n⟩

/-- Fresh entry. -/
def entry : StateId := ⟨0⟩

end StateId

/-- The identity of a procedure: declaring type, name and signature. -/
structure ProcId where
  owner : String
  name : String
  signature : String
  deriving DecidableEq, Inhabited

namespace ProcId

/-- Instance and type initializers have these two names. -/
def isInitializer (p : ProcId) : Bool :=
  p.name == "<init>" || p.name == "<clinit>"

/-- Same name and signature, whatever the declaring type. -/
def sameMember (p q : ProcId) : Bool :=
  p.name == q.name && p.signature == q.signature

end ProcId

/-- The type of a local or a saved slot. -/
inductive Ty where
  | void
  | bool
  | int
  | str
  /-- A handle to a mailbox. -/
  | mailbox
  /-- A value of any type: a message or an exception. -/
  | any
  deriving DecidableEq, Inhabited

/-- A declared local.  Parameters are locals too. -/
structure Local where
  id : LocalId
  name : Option String
  ty : Ty
  isParam : Bool
  deriving DecidableEq, Inhabited

/-! ## Operands and calls -/

inductive Const where
  | unit
  | int (value : Int64)
  | bool (value : Bool)
  | str (value : String)
  deriving DecidableEq, Inhabited

inductive Operand where
  | local (id : LocalId)
  | const (value : Const)
  deriving DecidableEq, Inhabited

namespace Operand

/-- The local that the operand reads, if it reads one. -/
def local? : Operand → Option LocalId
  | .local id => some id
  | .const _ => none

end Operand

inductive BinOp where
  | add
  | sub
  | mul
  | div
  | mod
  | eq
  | ne
  | lt
  | gt
  | le
  | ge
  | and
  | or
  /-- Joins the texts of two values. -/
  | concat
  deriving DecidableEq, Inhabited

inductive UnaryOp where
  | neg
  | not
  deriving DecidableEq, Inhabited

/-- The right-hand side of an assignment. -/
inductive RValue where
  | use (operand : Operand)
  | binary (op : BinOp) (left right : Operand)
  | unary (op : UnaryOp) (operand : Operand)
  deriving DecidableEq, Inhabited

namespace RValue

/-- The operands, left to right. -/
def operands : RValue → List Operand
  | .use operand => [operand]
  | .binary _ left right => [left, right]
  | .unary _ operand => [operand]

end RValue

/-- How a call picks its target. -/
inductive CallKind where
  /-- Exactly the named procedure. -/
  | static
  /-- The named procedure or any override in a subtype. -/
  | virtual
  deriving DecidableEq, Inhabited

/-- The target of a call. -/
structure FunctionRef where
  target : ProcId
  kind : CallKind
  deriving DecidableEq, Inhabited

/-! ## Blocks -/

/-- A statement.  Control goes on to the next one, or to the handler. -/
inductive Stmt where
  | assign (dst : LocalId) (rvalue : RValue)
  | call (dst : Option LocalId) (func : FunctionRef) (args : List Operand)
  /-- Loads the slots of the resumed frame, in order.  Resumable code only. -/
  | restore (slots : List LocalId)
  /-- Takes the completion of the call that suspended: stores its value, or
  raises its exception.  Resumable code only. -/
  | resume (dst : Option LocalId)
  deriving DecidableEq, Inhabited

/-- The end of a block. -/
inductive Terminator where
  | ret (value : Option Operand)
  | goto (target : BlockId)
  | branch (cond : Operand) (thenBlock elseBlock : BlockId)
  | switch (value : Operand) (cases : List (Int64 × BlockId)) (fallback : BlockId)
  /-- Raises a value to the handler of the block or to the caller. -/
  | throw (value : Operand)
  | unreachable
  /-- The entry of resumable code: a fresh call goes to `fresh`, a resumed one
  to the resume block of its state. -/
  | dispatch (fresh : BlockId) (states : List (StateId × BlockId))
  /-- A call that may suspend.  If it does, the locals `save` go into a frame
  tagged `state`; if it returns, control goes to `next`. -/
  | suspendCall (dst : Option LocalId) (func : FunctionRef) (args : List Operand)
      (state : StateId) (save : List LocalId) (next : BlockId)
  deriving DecidableEq, Inhabited

/-- Where a raised value goes, and the local that receives it. -/
structure Handler where
  target : BlockId
  bind : LocalId
  deriving DecidableEq, Inhabited

structure Block where
  id : BlockId
  statements : List Stmt
  terminator : Terminator
  handler : Option Handler
  /-- Positions of the calls that may suspend, written by classification. -/
  suspendSites : List Nat
  deriving DecidableEq, Inhabited

namespace Block

/-- A block with no statements that falls into unreachable code. -/
def empty (id : BlockId) : Block :=
  { id, statements := [], terminator := .unreachable, handler := none, suspendSites := [] }

end Block

/-! ## Procedures -/

/-- A local that a frame holds. -/
structure LiveSlot where
  localId : LocalId
  name : String
  ty : Ty
  deriving DecidableEq, Inhabited

/-- A point at which resumable code can be entered. -/
structure ResumptionState where
  id : StateId
  /-- The block that control reaches on entry at this state. -/
  block : BlockId
  /-- The locals that must be restored, in the order in which they are saved. -/
  live : List LiveSlot
  /-- The states that can be reached without crossing another suspension. -/
  successors : List StateId
  deriving DecidableEq, Inhabited

structure ProcAttrs where
  /-- Declared as suspending. -/
  suspendMarker : Bool
  /-- A generated forwarder to a single call. -/
  bridge : Bool
  /-- A declaration without a body. -/
  isAbstract : Bool
  /-- Already in resumable form. -/
  woven : Bool
  deriving DecidableEq, Inhabited

namespace ProcAttrs

/-- No attribute is set. -/
def plain : ProcAttrs :=
  { suspendMarker := false, bridge := false, isAbstract := false, woven := false }

end ProcAttrs

structure Procedure where
  id : ProcId
  params : List Local
  retTy : Ty
  locals : List Local
  blocks : List Block
  entryBlock : BlockId
  attrs : ProcAttrs
  /-- The resumption states of resumable code, fresh entry included. -/
  states : List ResumptionState
  deriving DecidableEq, Inhabited

end Resumable
