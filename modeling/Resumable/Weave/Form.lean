import Resumable.Procedure.Liveness
import Resumable.Procedure.Text

/-!
# The resumable form

What a procedure in resumable form has to satisfy, beyond being well formed.
Its entry dispatches on the resume state.  Every suspending call has a state of
its own; the dispatcher has one arm for it; the arm leads to the block that the
state records; that block begins by restoring exactly the locals that the call
saves, in the same order; and it needs no local that it does not restore itself.

`Procedure.verify` reports the first breach, calls in block order.
-/

namespace Resumable

/-- A breach of the resumable form. -/
inductive FormDefect where
  | missingEntry (entry : BlockId)
  | noDispatch
  | sharedState (state : StateId)
  | armCount (calls arms : Nat)
  | noArm (state : StateId)
  | unrecorded (state : StateId)
  | wrongBlock (state : StateId) (recorded dispatched : BlockId)
  | wrongRestore (resume : BlockId) (state : StateId)
  | wrongSlots (state : StateId)
  | unrestored (resume : BlockId) (missing : List LocalId)
  /-- A position marked as a suspending call holds no call. -/
  | notACall (block : BlockId) (site : Nat)
  /-- A block or a handler has a number out of range. -/
  | outOfRange
  deriving DecidableEq, Inhabited

def FormDefect.message : FormDefect → String
  | .missingEntry entry => "entry " ++ entry.text ++ " does not exist"
  | .noDispatch => "entry block does not dispatch on the resume state"
  | .sharedState state => "state " ++ state.text ++ " is used by two calls"
  | .armCount calls arms =>
    toString calls ++ " suspending calls but " ++ toString arms ++ " dispatcher entries"
  | .noArm state => "state " ++ state.text ++ " has no dispatcher entry"
  | .unrecorded state => "state " ++ state.text ++ " is not recorded"
  | .wrongBlock state recorded dispatched =>
    "state " ++ state.text ++ " resumes at " ++ recorded.text ++ " but dispatches to " ++
      dispatched.text
  | .wrongRestore resume state =>
    resume.text ++ " does not restore what state " ++ state.text ++ " saves"
  | .wrongSlots state => "state " ++ state.text ++ " records different slots than it saves"
  | .unrestored resume missing =>
    resume.text ++ " reads " ++ commaSeparated (missing.map LocalId.text) ++
      " without restoring it"
  | .notACall block site => block.text ++ " statement " ++ toString site ++ " is not a call"
  | .outOfRange => "block number out of range"

/-- The state and the save list of a suspending call. -/
def Terminator.suspension? : Terminator → Option (StateId × List LocalId)
  | .suspendCall _ _ _ state save _ => some (state, save)
  | _ => none

/-- The locals that a block restores first, if it begins so. -/
def Block.restored? (b : Block) : Option (List LocalId) :=
  match b.statements with
  | .restore slots :: _ => some slots
  | _ => none

/-- The block that the last arm for a state leads to. -/
def armFor? (arms : List (StateId × BlockId)) (state : StateId) : Option BlockId :=
  (arms.reverse.find? (·.1 == state)).map Prod.snd

/-- The first state that also occurs earlier in the list. -/
def firstRepeated? : List StateId → List StateId → Option StateId
  | _, [] => none
  | seen, s :: rest => if s ∈ seen then some s else firstRepeated? (s :: seen) rest

namespace Procedure

/-- The suspending calls, in block order. -/
def suspensions (p : Procedure) : List (StateId × List LocalId) :=
  p.blocks.filterMap fun b => b.terminator.suspension?

/-- Checks the resume path of one suspending call. -/
def verifyCall (p : Procedure) (arms : List (StateId × BlockId)) (live : Liveness)
    (call : StateId × List LocalId) : Except FormDefect Unit := do
  let (state, save) := call
  let some resume := armFor? arms state | throw (.noArm state)
  let some recorded := p.state? state | throw (.unrecorded state)
  if recorded.block ≠ resume then throw (.wrongBlock state recorded.block resume)
  if (p.block? resume).bind Block.restored? ≠ some save then
    throw (.wrongRestore resume state)
  if recorded.live.map LiveSlot.localId ≠ save then throw (.wrongSlots state)
  let missing := live.atStart resume
  if missing ≠ [] then throw (.unrestored resume missing)

/-- Checks the resumable form. -/
def verify (p : Procedure) : Except FormDefect Unit := do
  let some entry := p.block? p.entryBlock | throw (.missingEntry p.entryBlock)
  let .dispatch _ arms := entry.terminator | throw .noDispatch
  let calls := p.suspensions
  if let some state := firstRepeated? [] (calls.map Prod.fst) then throw (.sharedState state)
  let distinct := (arms.map Prod.fst).eraseDups.length
  if calls.length ≠ distinct then throw (.armCount calls.length distinct)
  let some live := Liveness.compute? p | throw .outOfRange
  calls.forM (p.verifyCall arms live)

end Procedure

end Resumable
