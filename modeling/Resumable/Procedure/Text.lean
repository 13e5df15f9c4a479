import Resumable.Procedure.Graph
import Resumable.Text.Quoted

/-!
# The text of a procedure

How code is shown.  Blocks are `bb0`, locals `_0`, states `s0`; a call shows its
target without the signature; a procedure shows its locals that are not
parameters, then its blocks with one statement a line.
-/

namespace Resumable

/-! ## Names and numbers -/

def Ty.text : Ty → String
  | .void => "void"
  | .bool => "bool"
  | .int => "int"
  | .str => "string"
  | .mailbox => "mailbox"
  | .any => "any"

def BlockId.text (b : BlockId) : String := "bb" ++ toString b.val

def LocalId.text (l : LocalId) : String := "_" ++ toString l.val

def StateId.text (s : StateId) : String := "s" ++ toString s.val

/-- The qualified name, directly followed by the signature. -/
def ProcId.text (p : ProcId) : String := p.owner ++ "." ++ p.name ++ p.signature

/-- The qualified name alone. -/
def ProcId.qualifiedName (p : ProcId) : String := p.owner ++ "." ++ p.name

/-! ## Operands -/

def boolText (b : Bool) : String := if b then "true" else "false"

def Const.text : Const → String
  | .unit => "()"
  | .int value => toString value.toInt
  | .bool value => boolText value
  | .str value => Text.quoted value

def Operand.text : Operand → String
  | .local id => id.text
  | .const value => value.text

def BinOp.text : BinOp → String
  | .add => "+"
  | .sub => "-"
  | .mul => "*"
  | .div => "/"
  | .mod => "%"
  | .eq => "=="
  | .ne => "!="
  | .lt => "<"
  | .gt => ">"
  | .le => "<="
  | .ge => ">="
  | .and => "&&"
  | .or => "||"
  | .concat => "++"

def UnaryOp.text : UnaryOp → String
  | .neg => "-"
  | .not => "!"

def RValue.text : RValue → String
  | .use operand => operand.text
  | .binary op left right => left.text ++ " " ++ op.text ++ " " ++ right.text
  | .unary op operand => op.text ++ operand.text

/-! ## Statements and terminators -/

/-- A list of parts with a comma and a space between them. -/
def commaSeparated (parts : List String) : String := String.intercalate ", " parts

/-- A call: destination, target and arguments. -/
def callText (dst : Option LocalId) (func : FunctionRef) (args : List Operand) : String :=
  (match dst with
    | some d => d.text ++ " = "
    | none => "") ++
  (match func.kind with
    | .virtual => "virtual "
    | .static => "") ++
  func.target.qualifiedName ++ "(" ++ commaSeparated (args.map Operand.text) ++ ")"

def Stmt.text : Stmt → String
  | .assign dst rvalue => dst.text ++ " = " ++ rvalue.text
  | .call dst func args => callText dst func args
  | .restore slots => "restore [" ++ commaSeparated (slots.map LocalId.text) ++ "]"
  | .resume (some d) => d.text ++ " = resume"
  | .resume none => "resume"

def Terminator.text : Terminator → String
  | .ret (some value) => "return " ++ value.text
  | .ret none => "return"
  | .goto target => "goto " ++ target.text
  | .branch cond thenBlock elseBlock =>
    "if " ++ cond.text ++ " then " ++ thenBlock.text ++ " else " ++ elseBlock.text
  | .switch value cases fallback =>
    "switch " ++ value.text ++ " [" ++
      commaSeparated (cases.map fun c => toString c.1.toInt ++ ": " ++ c.2.text) ++
      ", default: " ++ fallback.text ++ "]"
  | .throw value => "throw " ++ value.text
  | .unreachable => "unreachable"
  | .dispatch fresh states =>
    "dispatch [" ++
      commaSeparated (("fresh: " ++ fresh.text) ::
        states.map fun s => s.1.text ++ ": " ++ s.2.text) ++ "]"
  | .suspendCall dst func args state save next =>
    "suspendable " ++ callText dst func args ++ " @" ++ state.text ++ " save [" ++
      commaSeparated (save.map LocalId.text) ++ "] -> " ++ next.text

/-! ## Procedures -/

/-- The declaration of a local; a named one also shows its number. -/
def Local.declaration (l : Local) : String :=
  match l.name with
  | some name => "  let " ++ name ++ ": " ++ l.ty.text ++ "  // " ++ l.id.text ++ "\n"
  | none => "  let " ++ l.id.text ++ ": " ++ l.ty.text ++ "\n"

def Block.text (b : Block) : String :=
  "  " ++ b.id.text ++ ":" ++
  (match b.handler with
    | some h => "  // catch -> " ++ h.target.text ++ " (" ++ h.bind.text ++ ")"
    | none => "") ++ "\n" ++
  String.join (b.statements.map fun s => "    " ++ s.text ++ "\n") ++
  "    " ++ b.terminator.text ++ "\n"

/-- The first line of a procedure, up to its body. -/
def Procedure.heading (p : Procedure) : String :=
  (if p.attrs.woven then "woven "
    else if p.attrs.suspendMarker then "suspending "
    else "") ++
  "proc " ++ p.id.qualifiedName ++ "(" ++
  commaSeparated (p.params.map fun l => l.displayName ++ ": " ++ l.ty.text) ++
  ") -> " ++ p.retTy.text

/-- A procedure without a body ends after its first line.  The locals and the
blocks are parted by an empty line when there are locals to show. -/
def Procedure.text (p : Procedure) : String :=
  let shown := p.locals.filter fun l => !l.isParam
  if p.hasBody then
    p.heading ++ " \x7b\n" ++ String.join (shown.map Local.declaration) ++
      (if shown.isEmpty then "" else "\n") ++
      String.join (p.blocks.map Block.text) ++ "\x7d"
  else p.heading ++ ";"

end Resumable
