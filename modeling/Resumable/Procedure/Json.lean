import Resumable.Procedure.Basic
import Resumable.Json.Basic

/-!
# Procedures as JSON

The written form of every type of `Resumable.Procedure.Basic`, and the reader of
that form.  An identifier is its number, a variant is an object with its name, a
variant without fields is its name alone, and a record is an object with its
fields in the order of their declaration.
-/

namespace Resumable

open Json (ofList ofOption list? nullable? pair? variant? isBare cells)

/-! ## Names and numbers -/

def BlockId.toJson (b : BlockId) : Json := .ofNat b.val.toNat

def BlockId.ofJson? (j : Json) : Option BlockId := j.word32?.map BlockId.mk

def LocalId.toJson (l : LocalId) : Json := .ofNat l.val.toNat

def LocalId.ofJson? (j : Json) : Option LocalId := j.word32?.map LocalId.mk

def StateId.toJson (s : StateId) : Json := .ofNat s.val.toNat

def StateId.ofJson? (j : Json) : Option StateId := j.word32?.map StateId.mk

def ProcId.toJson (p : ProcId) : Json :=
  .obj [("owner", .str p.owner), ("name", .str p.name), ("signature", .str p.signature)]

def ProcId.ofJson? (j : Json) : Option ProcId := do
  match ← cells ["owner", "name", "signature"] j with
  | [owner, name, signature] =>
    return {
      owner := ← owner.required Json.string?
      name := ← name.required Json.string?
      signature := ← signature.required Json.string? }
  | _ => none

def Ty.jsonName : Ty → String
  | .void => "Void"
  | .bool => "Bool"
  | .int => "Int"
  | .str => "Str"
  | .mailbox => "Mailbox"
  | .any => "Any"

/-- The value of a variant without fields, from a table of names. -/
def bareVariant? {α : Type} (table : List (String × α)) (j : Json) : Option α := do
  let (name, content) ← variant? j
  if isBare content then (table.find? (·.1 == name)).map Prod.snd else none

def Ty.toJson (t : Ty) : Json := .str t.jsonName

def Ty.ofJson? : Json → Option Ty :=
  bareVariant? ([.void, .bool, .int, .str, .mailbox, .any].map fun t => (t.jsonName, t))

def Local.toJson (l : Local) : Json :=
  .obj [("id", l.id.toJson), ("name", ofOption .str l.name), ("ty", l.ty.toJson),
    ("is_param", .bool l.isParam)]

def Local.ofJson? (j : Json) : Option Local := do
  match ← cells ["id", "name", "ty", "is_param"] j with
  | [id, name, ty, isParam] =>
    return {
      id := ← id.required LocalId.ofJson?
      name := ← name.optional Json.string?
      ty := ← ty.required Ty.ofJson?
      isParam := ← isParam.required Json.bool? }
  | _ => none

/-! ## Operands and calls -/

def Const.toJson : Const → Json
  | .unit => .str "Unit"
  | .int value => .obj [("Int", .int value.toInt)]
  | .bool value => .obj [("Bool", .bool value)]
  | .str value => .obj [("Str", .str value)]

def Const.ofJson? (j : Json) : Option Const := do
  match ← variant? j with
  | ("Unit", content) => if isBare content then some .unit else none
  | ("Int", some v) => return .int (← v.int64?)
  | ("Bool", some v) => return .bool (← v.bool?)
  | ("Str", some v) => return .str (← v.string?)
  | _ => none

def Operand.toJson : Operand → Json
  | .local id => .obj [("Local", id.toJson)]
  | .const value => .obj [("Constant", value.toJson)]

def Operand.ofJson? (j : Json) : Option Operand := do
  match ← variant? j with
  | ("Local", some v) => return .local (← LocalId.ofJson? v)
  | ("Constant", some v) => return .const (← Const.ofJson? v)
  | _ => none

def BinOp.jsonName : BinOp → String
  | .add => "Add"
  | .sub => "Sub"
  | .mul => "Mul"
  | .div => "Div"
  | .mod => "Mod"
  | .eq => "Eq"
  | .ne => "Ne"
  | .lt => "Lt"
  | .gt => "Gt"
  | .le => "Le"
  | .ge => "Ge"
  | .and => "And"
  | .or => "Or"
  | .concat => "Concat"

def BinOp.toJson (op : BinOp) : Json := .str op.jsonName

def BinOp.ofJson? : Json → Option BinOp :=
  bareVariant? ([.add, .sub, .mul, .div, .mod, .eq, .ne, .lt, .gt, .le, .ge, .and, .or,
    .concat].map fun op => (op.jsonName, op))

def UnaryOp.jsonName : UnaryOp → String
  | .neg => "Neg"
  | .not => "Not"

def UnaryOp.toJson (op : UnaryOp) : Json := .str op.jsonName

def UnaryOp.ofJson? : Json → Option UnaryOp :=
  bareVariant? ([.neg, .not].map fun op => (op.jsonName, op))

def RValue.toJson : RValue → Json
  | .use operand => .obj [("Use", operand.toJson)]
  | .binary op left right =>
    .obj [("BinaryOp", .obj [("op", op.toJson), ("left", left.toJson), ("right", right.toJson)])]
  | .unary op operand =>
    .obj [("UnaryOp", .obj [("op", op.toJson), ("operand", operand.toJson)])]

def RValue.ofJson? (j : Json) : Option RValue := do
  match ← variant? j with
  | ("Use", some v) => return .use (← Operand.ofJson? v)
  | ("BinaryOp", some v) =>
    match ← cells ["op", "left", "right"] v with
    | [op, left, right] =>
      return .binary (← op.required BinOp.ofJson?) (← left.required Operand.ofJson?)
        (← right.required Operand.ofJson?)
    | _ => none
  | ("UnaryOp", some v) =>
    match ← cells ["op", "operand"] v with
    | [op, operand] =>
      return .unary (← op.required UnaryOp.ofJson?) (← operand.required Operand.ofJson?)
    | _ => none
  | _ => none

def CallKind.jsonName : CallKind → String
  | .static => "Static"
  | .virtual => "Virtual"

def CallKind.toJson (k : CallKind) : Json := .str k.jsonName

def CallKind.ofJson? : Json → Option CallKind :=
  bareVariant? ([.static, .virtual].map fun k => (k.jsonName, k))

def FunctionRef.toJson (f : FunctionRef) : Json :=
  .obj [("target", f.target.toJson), ("kind", f.kind.toJson)]

def FunctionRef.ofJson? (j : Json) : Option FunctionRef := do
  match ← cells ["target", "kind"] j with
  | [target, kind] =>
    return {
      target := ← target.required ProcId.ofJson?
      kind := ← kind.required CallKind.ofJson? }
  | _ => none

/-! ## Blocks -/

def Stmt.toJson : Stmt → Json
  | .assign dst rvalue =>
    .obj [("Assign", .obj [("dst", dst.toJson), ("rvalue", rvalue.toJson)])]
  | .call dst func args =>
    .obj [("Call", .obj [("dst", ofOption LocalId.toJson dst), ("func", func.toJson),
      ("args", ofList Operand.toJson args)])]
  | .restore slots => .obj [("Restore", .obj [("slots", ofList LocalId.toJson slots)])]
  | .resume dst => .obj [("Resume", .obj [("dst", ofOption LocalId.toJson dst)])]

def Stmt.ofJson? (j : Json) : Option Stmt := do
  match ← variant? j with
  | ("Assign", some v) =>
    match ← cells ["dst", "rvalue"] v with
    | [dst, rvalue] =>
      return .assign (← dst.required LocalId.ofJson?) (← rvalue.required RValue.ofJson?)
    | _ => none
  | ("Call", some v) =>
    match ← cells ["dst", "func", "args"] v with
    | [dst, func, args] =>
      return .call (← dst.optional LocalId.ofJson?) (← func.required FunctionRef.ofJson?)
        (← args.required (list? Operand.ofJson?))
    | _ => none
  | ("Restore", some v) =>
    match ← cells ["slots"] v with
    | [slots] => return .restore (← slots.required (list? LocalId.ofJson?))
    | _ => none
  | ("Resume", some v) =>
    match ← cells ["dst"] v with
    | [dst] => return .resume (← dst.optional LocalId.ofJson?)
    | _ => none
  | _ => none

def switchCaseJson (c : Int64 × BlockId) : Json := .arr [.int c.1.toInt, c.2.toJson]

def dispatchArmJson (a : StateId × BlockId) : Json := .arr [a.1.toJson, a.2.toJson]

def Terminator.toJson : Terminator → Json
  | .ret value => .obj [("Return", .obj [("value", ofOption Operand.toJson value)])]
  | .goto target => .obj [("Goto", .obj [("target", target.toJson)])]
  | .branch cond thenBlock elseBlock =>
    .obj [("Branch", .obj [("cond", cond.toJson), ("then_block", thenBlock.toJson),
      ("else_block", elseBlock.toJson)])]
  | .switch value cases fallback =>
    .obj [("Switch", .obj [("value", value.toJson), ("cases", ofList switchCaseJson cases),
      ("default", fallback.toJson)])]
  | .throw value => .obj [("Throw", .obj [("value", value.toJson)])]
  | .unreachable => .str "Unreachable"
  | .dispatch fresh states =>
    .obj [("Dispatch", .obj [("fresh", fresh.toJson),
      ("states", ofList dispatchArmJson states)])]
  | .suspendCall dst func args state save next =>
    .obj [("SuspendCall", .obj [("dst", ofOption LocalId.toJson dst), ("func", func.toJson),
      ("args", ofList Operand.toJson args), ("state", state.toJson),
      ("save", ofList LocalId.toJson save), ("next", next.toJson)])]

def Terminator.ofJson? (j : Json) : Option Terminator := do
  match ← variant? j with
  | ("Return", some v) =>
    match ← cells ["value"] v with
    | [value] => return .ret (← value.optional Operand.ofJson?)
    | _ => none
  | ("Goto", some v) =>
    match ← cells ["target"] v with
    | [target] => return .goto (← target.required BlockId.ofJson?)
    | _ => none
  | ("Branch", some v) =>
    match ← cells ["cond", "then_block", "else_block"] v with
    | [cond, thenBlock, elseBlock] =>
      return .branch (← cond.required Operand.ofJson?) (← thenBlock.required BlockId.ofJson?)
        (← elseBlock.required BlockId.ofJson?)
    | _ => none
  | ("Switch", some v) =>
    match ← cells ["value", "cases", "default"] v with
    | [value, cases, fallback] =>
      return .switch (← value.required Operand.ofJson?)
        (← cases.required (list? (pair? Json.int64? BlockId.ofJson?)))
        (← fallback.required BlockId.ofJson?)
    | _ => none
  | ("Throw", some v) =>
    match ← cells ["value"] v with
    | [value] => return .throw (← value.required Operand.ofJson?)
    | _ => none
  | ("Unreachable", content) => if isBare content then some .unreachable else none
  | ("Dispatch", some v) =>
    match ← cells ["fresh", "states"] v with
    | [fresh, states] =>
      return .dispatch (← fresh.required BlockId.ofJson?)
        (← states.required (list? (pair? StateId.ofJson? BlockId.ofJson?)))
    | _ => none
  | ("SuspendCall", some v) =>
    match ← cells ["dst", "func", "args", "state", "save", "next"] v with
    | [dst, func, args, state, save, next] =>
      return .suspendCall (← dst.optional LocalId.ofJson?) (← func.required FunctionRef.ofJson?)
        (← args.required (list? Operand.ofJson?)) (← state.required StateId.ofJson?)
        (← save.required (list? LocalId.ofJson?)) (← next.required BlockId.ofJson?)
    | _ => none
  | _ => none

def Handler.toJson (h : Handler) : Json :=
  .obj [("target", h.target.toJson), ("bind", h.bind.toJson)]

def Handler.ofJson? (j : Json) : Option Handler := do
  match ← cells ["target", "bind"] j with
  | [target, bind] =>
    return {
      target := ← target.required BlockId.ofJson?
      bind := ← bind.required LocalId.ofJson? }
  | _ => none

def Block.toJson (b : Block) : Json :=
  .obj [("id", b.id.toJson), ("statements", ofList Stmt.toJson b.statements),
    ("terminator", b.terminator.toJson), ("handler", ofOption Handler.toJson b.handler),
    ("suspend_sites", ofList Json.ofNat b.suspendSites)]

def Block.ofJson? (j : Json) : Option Block := do
  match ← cells ["id", "statements", "terminator", "handler", "suspend_sites"] j with
  | [id, statements, terminator, handler, sites] =>
    return {
      id := ← id.required BlockId.ofJson?
      statements := ← statements.required (list? Stmt.ofJson?)
      terminator := ← terminator.required Terminator.ofJson?
      handler := ← handler.orElse (nullable? Handler.ofJson?) none
      suspendSites := ← sites.orElse (list? Json.size?) [] }
  | _ => none

/-! ## Procedures -/

def LiveSlot.toJson (s : LiveSlot) : Json :=
  .obj [("local", s.localId.toJson), ("name", .str s.name), ("ty", s.ty.toJson)]

def LiveSlot.ofJson? (j : Json) : Option LiveSlot := do
  match ← cells ["local", "name", "ty"] j with
  | [localId, name, ty] =>
    return {
      localId := ← localId.required LocalId.ofJson?
      name := ← name.required Json.string?
      ty := ← ty.required Ty.ofJson? }
  | _ => none

def ResumptionState.toJson (s : ResumptionState) : Json :=
  .obj [("id", s.id.toJson), ("block", s.block.toJson), ("live", ofList LiveSlot.toJson s.live),
    ("successors", ofList StateId.toJson s.successors)]

def ResumptionState.ofJson? (j : Json) : Option ResumptionState := do
  match ← cells ["id", "block", "live", "successors"] j with
  | [id, block, live, successors] =>
    return {
      id := ← id.required StateId.ofJson?
      block := ← block.required BlockId.ofJson?
      live := ← live.required (list? LiveSlot.ofJson?)
      successors := ← successors.required (list? StateId.ofJson?) }
  | _ => none

def ProcAttrs.toJson (a : ProcAttrs) : Json :=
  .obj [("suspend_marker", .bool a.suspendMarker), ("bridge", .bool a.bridge),
    ("is_abstract", .bool a.isAbstract), ("woven", .bool a.woven)]

def ProcAttrs.ofJson? (j : Json) : Option ProcAttrs := do
  match ← cells ["suspend_marker", "bridge", "is_abstract", "woven"] j with
  | [suspendMarker, bridge, isAbstract, woven] =>
    return {
      suspendMarker := ← suspendMarker.required Json.bool?
      bridge := ← bridge.required Json.bool?
      isAbstract := ← isAbstract.required Json.bool?
      woven := ← woven.required Json.bool? }
  | _ => none

def Procedure.toJson (p : Procedure) : Json :=
  .obj [("id", p.id.toJson), ("params", ofList Local.toJson p.params),
    ("ret_ty", p.retTy.toJson), ("locals", ofList Local.toJson p.locals),
    ("blocks", ofList Block.toJson p.blocks), ("entry_block", p.entryBlock.toJson),
    ("attrs", p.attrs.toJson), ("states", ofList ResumptionState.toJson p.states)]

def Procedure.ofJson? (j : Json) : Option Procedure := do
  match ← cells ["id", "params", "ret_ty", "locals", "blocks", "entry_block", "attrs",
    "states"] j with
  | [id, params, retTy, locals, blocks, entryBlock, attrs, states] =>
    return {
      id := ← id.required ProcId.ofJson?
      params := ← params.required (list? Local.ofJson?)
      retTy := ← retTy.required Ty.ofJson?
      locals := ← locals.required (list? Local.ofJson?)
      blocks := ← blocks.required (list? Block.ofJson?)
      entryBlock := ← entryBlock.required BlockId.ofJson?
      attrs := ← attrs.orElse ProcAttrs.ofJson? ProcAttrs.plain
      states := ← states.orElse (list? ResumptionState.ofJson?) [] }
  | _ => none

end Resumable
