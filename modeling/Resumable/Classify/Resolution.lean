import Resumable.Procedure.Validity
import Resumable.Primitive
import Resumable.Unit.Basic
import Resumable.Classify.External
import Resumable.Classify.Config

/-!
# Where calls lead

A call is resolved in this order: an initializer or a sealed owner never
suspends; a runtime primitive has a fixed verdict; then comes the procedure of
the unit with exactly the target's identity; then, for a type that the unit
declares, its parents in order; and for any other type the external metadata.

A virtual call may also run any procedure of the unit with the same name and
signature whose owner is a proper subtype of the target's owner.
-/

namespace Resumable

/-- Where the named target of a call was found. -/
inductive Target where
  /-- The procedure at a position of the unit. -/
  | node (index : Nat)
  | known (verdict : Verdict)
  deriving DecidableEq

/-- One call statement and everything that it may run. -/
structure Site where
  block : Nat
  stmt : Nat
  callee : ProcId
  nodes : List Nat
  fixed : Option Verdict
  deriving DecidableEq

/-- The setting in which calls are resolved. -/
structure CallGraph where
  external : ExternalResolver
  config : AnalysisConfig
  unit : CompilationUnit

namespace CallGraph

/-- The position of the first procedure with an identity. -/
def position? (g : CallGraph) (id : ProcId) : Option Nat :=
  g.unit.procedures.findIdx? (·.id == id)

/-- The last declaration of a type in the unit. -/
def decl? (g : CallGraph) (name : String) : Option TypeDecl :=
  g.unit.types.reverse.find? (·.name == name)

/-- A bound on the steps of a search through the hierarchy: every edge of the
unit's types and of the external ones. -/
def searchBound (g : CallGraph) : Nat :=
  (g.unit.types.flatMap TypeDecl.parents).length + g.external.edges + 2

/-- What the search for a member finds at an owner. -/
def lookMember (g : CallGraph) (target : ProcId) (owner : String) : Search String Target :=
  let id := { target with owner }
  if id.isInitializer || g.config.seals owner then
    { children := [], own := some (.known .notSuspending) }
  else match Primitive.ofProc? id with
    | some which => { children := [], own := some (.known (.ofFlag which.suspends)) }
    | none =>
      match g.position? id with
      | some index => { children := [], own := some (.node index) }
      | none =>
        match g.decl? owner with
        | some decl => { children := decl.parents, own := none }
        | none => { children := [], own := (g.external.find? id).map Target.known }

/-- The one target that the resolution order finds. -/
def member? (g : CallGraph) (target : ProcId) : Option Target :=
  (firstFound (g.lookMember target) g.searchBound [target.owner] []).1

/-- The parents of a type: as the unit declares it, or else the external ones. -/
def parents (g : CallGraph) (type : String) : List String :=
  match g.decl? type with
  | some decl => decl.parents
  | none => g.external.supertypes type

/-- What the search for an ancestor finds at a type. -/
def lookAncestor (g : CallGraph) (ancestor type : String) : Search String Unit :=
  if type = ancestor then { children := [], own := some () }
  else { children := g.parents type, own := none }

/-- Whether a type is the ancestor or derives from it. -/
def isSubtype (g : CallGraph) (type ancestor : String) : Bool :=
  (firstFound (g.lookAncestor ancestor) g.searchBound [type] []).1.isSome

/-- The procedures that may override the target of a virtual call. -/
def overrides (g : CallGraph) (target : ProcId) : List Nat :=
  g.unit.procedures.zipIdx.filterMap fun (p, n) =>
    if p.id.sameMember target && p.id.owner != target.owner &&
        g.isSubtype p.id.owner target.owner then some n
    else none

/-- Resolves one call. -/
def site (g : CallGraph) (block stmt : Nat) (func : FunctionRef) : Site :=
  let found := g.member? func.target
  let named :=
    match found with
    | some (.node n) => [n]
    | _ => []
  let fixed :=
    match found with
    | some (.known v) => some v
    | _ => none
  let others :=
    match func.kind with
    | .static => []
    | .virtual => (g.overrides func.target).filter fun n => !named.contains n
  { block, stmt, callee := func.target, nodes := named ++ others, fixed }

/-- Resolves every call statement of a procedure, in order. -/
def sites (g : CallGraph) (p : Procedure) : List Site :=
  p.blocks.zipIdx.flatMap fun (block, b) =>
    block.statements.zipIdx.filterMap fun (stmt, s) =>
      stmt.callee?.map fun func => g.site b s func

end CallGraph

namespace Site

/-- Whether the call leads nowhere. -/
def isUnresolved (s : Site) : Bool :=
  s.nodes.isEmpty && s.fixed.isNone

/-- Whether the call may suspend, given the procedures that do. -/
def suspends (s : Site) (suspending : List Bool) : Bool :=
  s.fixed == some .suspending || s.nodes.any fun n => suspending.getD n false

end Site

end Resumable
