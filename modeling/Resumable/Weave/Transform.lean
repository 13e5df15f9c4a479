import Resumable.Weave.Cut
import Resumable.Weave.Successors
import Resumable.Classify.Classification

/-!
# Weaving a procedure

Turns a suspending procedure into resumable form: every block is cut at its
suspending calls, and a new entry dispatches on the resumed state.  Locals keep
their numbers.  The result is verified before it is handed out.

The holder of a woven procedure lists the slots of all its states, each local
once.
-/

namespace Resumable

/-- Why a procedure was not woven. -/
inductive WeaveError where
  | analysis (error : AnalysisError)
  | notSuspending (proc : ProcId)
  | invariant (proc : ProcId) (defect : FormDefect)
  deriving DecidableEq, Inhabited

def violationMessage (proc : ProcId) (defect : FormDefect) : String :=
  "transformation invariant violated in " ++ proc.text ++ ": " ++ defect.message

def WeaveError.message : WeaveError → String
  | .analysis error => error.message
  | .notSuspending proc => proc.text ++ " does not suspend; nothing to weave"
  | .invariant proc defect => violationMessage proc defect

/-- The layout of what a woven procedure saves when it suspends. -/
structure StateHolder where
  name : String
  procedure : ProcId
  fields : List LiveSlot
  deriving DecidableEq, Inhabited

/-- The first slot of every local, in order of occurrence. -/
def firstSlots : List LocalId → List LiveSlot → List LiveSlot
  | _, [] => []
  | seen, s :: rest =>
    if s.localId ∈ seen then firstSlots seen rest
    else s :: firstSlots (s.localId :: seen) rest

/-- The slots of all states but fresh entry, by local. -/
def Procedure.holder (p : Procedure) : StateHolder :=
  let slots := (p.states.filter fun s => s.id != StateId.entry).flatMap ResumptionState.live
  { name := p.id.owner ++ "$State." ++ p.id.name ++ p.id.signature
    procedure := p.id
    fields := Ascending.sort (fun s => s.localId.index) (firstSlots [] slots) }

/-- A woven procedure with its holder. -/
structure WovenProcedure where
  procedure : Procedure
  holder : StateHolder
  deriving DecidableEq, Inhabited

/-- The dispatcher: fresh calls go to the old entry, resumed ones to the resume
blocks of their states. -/
def dispatcher (id fresh : BlockId) (states : List ResumptionState) : Block :=
  { Block.empty id with
    terminator := .dispatch fresh (states.map fun s => (s.id, s.block)) }

namespace Procedure

/-- Puts the pieces of a procedure together. -/
def assemble (p : Procedure) (cut : Cut) : Procedure :=
  let entryBlock := BlockId.ofIndex cut.nextBlock
  let blocks := Ascending.sort (fun b => b.id.index)
    (cut.blocks ++ [dispatcher entryBlock p.entryBlock cut.states])
  let fresh : ResumptionState :=
    { id := StateId.entry, block := p.entryBlock,
      live := p.params.map fun l => p.slot l.id, successors := [] }
  let woven := { p with blocks, entryBlock, attrs := { p.attrs with woven := true } }
  { woven with
    states := (fresh :: cut.states).map fun s =>
      { s with successors := woven.reachableStates s.block } }

/-- The resumable form of a procedure whose suspending calls are marked. -/
def resumableForm (p : Procedure) : Except FormDefect Procedure := do
  let some live := Liveness.compute? p | throw .outOfRange
  let cut ← cutBlocks p live p.blocks p.blocks.length 1
  let woven := p.assemble cut
  woven.verify
  return woven

/-- Weaves a procedure against the classification of its unit.  A procedure that
is already woven or has no body is left alone. -/
def weave (p : Procedure) (c : Classification) : Except WeaveError (Option WovenProcedure) :=
  if p.attrs.woven || !p.hasBody then .ok none
  else match c.errorFor? p.id with
    | some e => .error (.analysis e)
    | none =>
      if c.isSuspending p.id then
        match p.resumableForm with
        | .ok woven => .ok (some { procedure := woven, holder := woven.holder })
        | .error defect => .error (.invariant p.id defect)
      else .error (.notSuspending p.id)

end Procedure

end Resumable
