import Resumable.Json.Printer
import Resumable.Script.Basic

/-!
# Scripts as JSON

An action is an object with its name under `a` and its operands beside it.  A value
or an action that cannot be read is kept as unknown, so that a script is always read
and fails where it is reached.  A count that is missing is 0, and a flag is lowered.
-/

namespace Resumable

/-- A plain value, or an object that names a mailbox. -/
def Literal.ofJson : Json → Literal
  | .null => .value .unit
  | .bool b => .value (.bool b)
  | .str s => .value (.str s)
  | .obj members =>
    match (Json.obj members).get? "mailbox" with
    | some (.str name) => .mailbox name
    | _ => .unknown
  | j =>
    match j.int64? with
    | some n => .value (.int n)
    | none => .unknown

/-- A member of an object, or null if it is missing. -/
def Json.member (j : Json) (name : String) : Json := (j.get? name).getD .null

/-- A text, or the empty one if it is missing. -/
def Json.textMember (j : Json) (name : String) : String :=
  ((j.member name).string?).getD ""

/-- A count, or 0 if it is missing. -/
def Json.countMember (j : Json) (name : String) : Nat :=
  ((j.member name).size?).getD 0

def FailureLiteral.ofJson (j : Json) : FailureLiteral :=
  match j.textMember "kind" with
  | "Panicked" => .panicked (j.textMember "message")
  | "Fault" => .fault (j.textMember "message")
  | _ => .raised (.ofJson (j.member "value"))

namespace Action

/-- The operand `v`. -/
def valueOf (j : Json) : Literal := .ofJson (j.member "v")

/-- A breakdown with a text as its payload, or with another one. -/
def ofPanic (j : Json) : Action :=
  match j.textMember "payload" with
  | "str" => .panic (j.textMember "message")
  | "string" => .panic (j.textMember "message")
  | _ => .panic unknownPanic

def ofPause (j : Json) : Action :=
  .pause {
    flag := j.textMember "flag"
    description := ((j.member "describe").string?).getD Condition.plainDescription }

def ofJson (j : Json) : Action :=
  let box := j.textMember "m"
  let task := j.textMember "task"
  match j.textMember "a" with
  | "get" => .get box
  | "get_once" => .getOnce box
  | "put" => .put box (valueOf j)
  | "put_once" => .putOnce box (valueOf j)
  | "getnb" => .getNb box
  | "putnb" => .putNb box (valueOf j)
  | "yield" => .yield
  | "yield_value" => .yieldValue (valueOf j)
  | "exit" => .exit (valueOf j)
  | "error_exit" => .errorExit (.ofJson j)
  | "pause" => ofPause j
  | "pending" => .pending
  | "return" => .ret (valueOf j)
  | "fail" => .fail (.ofJson j)
  | "panic" => ofPanic j
  | "violate" => .violate (j.textMember "message")
  | "start" => .start task
  | "resume" => .resume task
  | "self" => .current
  | "debug" => .debug
  | "log" => .log (j.member "v").compact
  | "set" => .setFlag (j.textMember "flag") (((j.member "v").bool?).getD false)
  | "shutdown" => .shutdown
  | "sleep" => .sleep (j.countMember "ms")
  | "loop" => .loop (j.countMember "to") (j.countMember "times")
  | _ => .unknown

end Action

end Resumable
