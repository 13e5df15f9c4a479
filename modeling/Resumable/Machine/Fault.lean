import Resumable.Procedure.Json
import Resumable.Procedure.Text
import Resumable.Primitive

/-!
# Machine faults

Why the machine cannot go on: the program is ill formed, a value has the wrong
type, or code that is not resumable was suspended or resumed.  Unlike an exception
a fault cannot be caught.
-/

namespace Resumable

inductive MachineFault where
  | unknownProcedure (proc : ProcId)
  | noBody (proc : ProcId)
  | arity (proc : ProcId) (params args : Nat)
  | noLocal (proc : ProcId) (id : LocalId)
  | noBlock (proc : ProcId) (id : BlockId)
  | reachedUnreachable (proc : ProcId) (block : BlockId)
  -- types
  | badBranch (proc : ProcId) (typeName : String)
  | badSwitch (proc : ProcId) (typeName : String)
  | badBinary (op : BinOp) (left right : String)
  | badUnary (op : UnaryOp) (operand : String)
  | wantsMailbox (primitive : Primitive)
  | wantsMailboxAndMessage (primitive : Primitive)
  | wantsDuration (primitive : Primitive)
  -- resumption
  | notSuspensionPoint (proc callee : ProcId)
  | notWoven (proc : ProcId)
  | restoreOutsideResume (proc : ProcId)
  | slotCount (proc : ProcId) (wanted held : Nat)
  | resumedTwice (proc : ProcId)
  | noState (proc : ProcId) (state : StateId)
  | drivenAgain (entry : ProcId)
  deriving DecidableEq, Inhabited

def MachineFault.message : MachineFault → String
  | .unknownProcedure proc => "unknown procedure " ++ proc.text
  | .noBody proc => proc.text ++ " has no body"
  | .arity proc params args =>
    proc.text ++ " takes " ++ params.repr ++ " arguments, got " ++ args.repr
  | .noLocal proc id => proc.text ++ " has no local " ++ id.text
  | .noBlock proc id => proc.text ++ " has no block " ++ id.text
  | .reachedUnreachable proc block =>
    proc.text ++ " reached unreachable code in " ++ block.text
  | .badBranch proc typeName => "branch on " ++ typeName ++ " in " ++ proc.text
  | .badSwitch proc typeName => "switch on " ++ typeName ++ " in " ++ proc.text
  | .badBinary op left right =>
    "unsupported binary op " ++ op.jsonName ++ " on " ++ left ++ " and " ++ right
  | .badUnary op operand => "unsupported unary op " ++ op.jsonName ++ " on " ++ operand
  | .wantsMailbox primitive => primitive.name ++ " expects a mailbox"
  | .wantsMailboxAndMessage primitive =>
    primitive.name ++ " expects a mailbox and a message"
  | .wantsDuration primitive => primitive.name ++ " expects a duration in milliseconds"
  | .notSuspensionPoint proc callee =>
    callee.text ++ " suspended inside " ++ proc.text ++ ", which is not a suspension point"
  | .notWoven proc => "cannot resume " ++ proc.text ++ ": it is not woven"
  | .restoreOutsideResume proc => proc.text ++ " restores outside a resume"
  | .slotCount proc wanted held =>
    proc.text ++ " restores " ++ wanted.repr ++ " slots from a frame holding " ++ held.repr
  | .resumedTwice proc => proc.text ++ " resumed twice"
  | .noState proc state => proc.text ++ " has no resumption state " ++ state.text
  | .drivenAgain entry => entry.text ++ " driven again after it finished"

end Resumable
