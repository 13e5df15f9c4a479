import Resumable.Classify.Resolution

/-!
# Which procedures suspend

A procedure suspends when it is declared so, when it is already in resumable
form, or when a call that it makes may run a procedure that suspends.
`CompilationUnit.classify` computes the least such set: it starts from the
procedures that suspend for a reason of their own and adds callers until
nothing changes.

A procedure that cannot be trusted is broken and takes no part: one that is
defined twice, has a malformed graph, is a bridge without exactly one call, or,
under strict resolution, makes a call that leads nowhere.  Each such defect is
recorded; the rest of the unit is still classified.
-/

namespace Resumable

/-- Why a procedure was not analysed. -/
inductive AnalysisError where
  | malformedGraph (proc : ProcId) (defect : GraphError)
  | bridgeForwarding (proc : ProcId) (calls : Nat)
  | unresolvedCall (caller callee : ProcId)
  | duplicateProcedure (proc : ProcId)
  deriving DecidableEq, Inhabited

namespace AnalysisError

def message : AnalysisError → String
  | .malformedGraph proc defect =>
    "malformed control-flow graph in " ++ proc.text ++ ": " ++ defect.message
  | .bridgeForwarding proc calls =>
    "bridge " ++ proc.text ++ " must forward to exactly one call, found " ++ toString calls
  | .unresolvedCall caller callee =>
    caller.text ++ " calls " ++ callee.text ++ ", which is declared nowhere"
  | .duplicateProcedure proc => proc.text ++ " is defined more than once in the unit"

/-- The procedure that the error keeps from being analysed. -/
def procedure : AnalysisError → ProcId
  | .malformedGraph proc _ => proc
  | .bridgeForwarding proc _ => proc
  | .unresolvedCall caller _ => caller
  | .duplicateProcedure proc => proc

end AnalysisError

/-- A call that was assumed not to suspend because its target is unknown. -/
structure UnresolvedCall where
  caller : ProcId
  callee : ProcId
  deriving DecidableEq, Inhabited

/-- A procedure in the call graph. -/
structure CallNode where
  procedure : Procedure
  /-- The structural defect, if there is one. -/
  defect : Option AnalysisError
  sites : List Site
  /-- Whether the procedure takes no part in the analysis. -/
  broken : Bool

namespace CallGraph

/-- The structural defect of the procedure at a position. -/
def defect? (g : CallGraph) (index : Nat) (p : Procedure) : Option AnalysisError :=
  if g.position? p.id != some index then some (.duplicateProcedure p.id)
  else match p.validate with
    | .error e => some (.malformedGraph p.id e)
    | .ok _ =>
      if p.attrs.bridge && p.calls.length != 1 then
        some (.bridgeForwarding p.id p.calls.length)
      else none

/-- Whether the calls of the procedure are followed. -/
def follows (p : Procedure) : Bool :=
  !p.attrs.woven && p.hasBody && !p.id.isInitializer

def node (g : CallGraph) (index : Nat) (p : Procedure) : CallNode :=
  let defect := g.defect? index p
  let sites := if defect.isNone && follows p then g.sites p else []
  { procedure := p, defect, sites
    broken := defect.isSome || (g.config.strictResolution && sites.any Site.isUnresolved) }

def nodes (g : CallGraph) : List CallNode :=
  g.unit.procedures.zipIdx.map fun (p, i) => g.node i p

end CallGraph

namespace CallNode

/-- Whether the procedure suspends for a reason of its own: by declaration, by
its form, or by a call with a fixed verdict. -/
def isSeed (n : CallNode) : Bool :=
  !n.procedure.id.isInitializer &&
    (n.procedure.attrs.suspendMarker || n.procedure.attrs.woven ||
      (!n.broken && n.sites.any fun s => s.fixed == some .suspending))

/-- Whether the verdict of the procedure hangs on its calls. -/
def isOpen (n : CallNode) : Bool :=
  !n.procedure.id.isInitializer && !n.broken

/-- Calls that lead nowhere. -/
def unresolved (n : CallNode) : List UnresolvedCall :=
  (n.sites.filter Site.isUnresolved).map fun s =>
    { caller := n.procedure.id, callee := s.callee }

end CallNode

/-! ## The least set -/

/-- Adds the callers of procedures that suspend, one step up the call graph. -/
def addCallers (nodes : List CallNode) (suspending : List Bool) : List Bool :=
  nodes.zipWith
    (fun n known => known || (n.isOpen && n.sites.any fun s => s.suspends suspending))
    suspending

/-- Adds callers until nothing changes, a bounded number of times. -/
def closeCallers (nodes : List CallNode) : Nat → List Bool → List Bool
  | 0, suspending => suspending
  | rounds + 1, suspending =>
    let next := addCallers nodes suspending
    if next == suspending then suspending else closeCallers nodes rounds next

/-- Whether each procedure suspends.  Every round but the last adds one, so as
many rounds as there are procedures are enough. -/
def suspendingNodes (nodes : List CallNode) : List Bool :=
  closeCallers nodes (nodes.length + 1) (nodes.map CallNode.isSeed)

/-! ## Annotation -/

/-- Writes the positions of the calls that may suspend into the blocks. -/
def annotate (p : Procedure) (sites : List Site) (suspending : List Bool) : Procedure :=
  { p with
    blocks := p.blocks.zipIdx.map fun (block, b) =>
      { block with
        suspendSites :=
          (sites.filter fun s => s.block == b && s.suspends suspending).map Site.stmt } }

namespace CallNode

/-- The procedure after classification: annotated, unless it is broken or
already in resumable form. -/
def classified (n : CallNode) (suspending : List Bool) : Procedure :=
  if n.broken || n.procedure.attrs.woven then n.procedure
  else annotate n.procedure n.sites suspending

end CallNode

/-! ## The classification of a unit -/

structure Classification where
  /-- The verdict of every identity of the unit, in order of first occurrence. -/
  verdicts : List (ProcId × Verdict)
  unresolved : List UnresolvedCall
  errors : List AnalysisError
  deriving DecidableEq, Inhabited

namespace Classification

def verdict? (c : Classification) (id : ProcId) : Option Verdict :=
  (c.verdicts.find? (·.1 == id)).map Prod.snd

def isSuspending (c : Classification) (id : ProcId) : Bool :=
  (c.verdict? id).any Verdict.isSuspending

/-- The procedures that suspend. -/
def suspending (c : Classification) : List ProcId :=
  (c.verdicts.filter fun v => v.2.isSuspending).map Prod.fst

/-- The first error recorded for a procedure. -/
def errorFor? (c : Classification) (id : ProcId) : Option AnalysisError :=
  c.errors.find? (·.procedure == id)

end Classification

namespace CallGraph

/-- The verdicts of the first procedure of every identity. -/
def verdicts (g : CallGraph) (suspending : List Bool) : List (ProcId × Verdict) :=
  (g.unit.procedures.zip suspending).zipIdx.filterMap fun (e, i) =>
    if g.position? e.1.id == some i then some (e.1.id, .ofFlag e.2) else none

def classification (g : CallGraph) : Classification :=
  let nodes := g.nodes
  let unresolved := nodes.flatMap CallNode.unresolved
  let strict := g.config.strictResolution
  { verdicts := g.verdicts (suspendingNodes nodes)
    unresolved := if strict then [] else unresolved
    errors := nodes.filterMap CallNode.defect ++
      if strict then unresolved.map fun u => .unresolvedCall u.caller u.callee else [] }

/-- The unit with the calls that may suspend marked. -/
def annotated (g : CallGraph) : CompilationUnit :=
  let nodes := g.nodes
  let suspending := suspendingNodes nodes
  { g.unit with procedures := nodes.map fun n => n.classified suspending }

end CallGraph

/-- Classifies every procedure of a unit and marks the calls that may suspend. -/
def CompilationUnit.classify (unit : CompilationUnit) (external : ExternalResolver)
    (config : AnalysisConfig) : Classification × CompilationUnit :=
  let g : CallGraph := { external, config, unit }
  (g.classification, g.annotated)

end Resumable
