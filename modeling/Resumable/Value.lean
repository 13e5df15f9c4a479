import Resumable.Procedure.Text

/-!
# Values

What a local, a frame slot or a mailbox holds, and how a task ends.

A mailbox is a value by its number: two handles are equal when they name the same
mailbox.  Tasks are numbered from 1 in the order in which they are made.
-/

namespace Resumable

/-- The number of a mailbox. -/
structure MailboxId where
  index : Nat
  deriving DecidableEq, Inhabited

/-- The number of a task. -/
structure TaskId where
  number : Nat
  deriving DecidableEq, Inhabited

def TaskId.text (t : TaskId) : String := "task#" ++ t.number.repr

inductive Value where
  | unit
  | int (value : Int64)
  | bool (value : Bool)
  | str (value : String)
  | mailbox (id : MailboxId)
  deriving DecidableEq, Inhabited

namespace Value

/-- The bytes that a value takes in a buffer: a tag and two words. -/
def slotBytes : Nat := 24

def ofConst : Const → Value
  | .unit => .unit
  | .int n => .int n
  | .bool b => .bool b
  | .str s => .str s

def int? : Value → Option Int64
  | .int n => some n
  | _ => none

def bool? : Value → Option Bool
  | .bool b => some b
  | _ => none

def str? : Value → Option String
  | .str s => some s
  | _ => none

def mailbox? : Value → Option MailboxId
  | .mailbox m => some m
  | _ => none

def typeName : Value → String
  | .unit => "void"
  | .int _ => "int"
  | .bool _ => "bool"
  | .str _ => "str"
  | .mailbox _ => "mailbox"

/-- The text of a value, given the text of a mailbox. -/
def text (box : MailboxId → String) : Value → String
  | .unit => "()"
  | .int n => toString n.toInt
  | .bool b => boolText b
  | .str s => s
  | .mailbox m => box m

end Value

/-- Why a task ended without a value. -/
inductive Failure where
  /-- An exception that nothing caught. -/
  | raised (value : Value)
  /-- The body of the task broke down. -/
  | panicked (message : String)
  /-- The machine could not go on. -/
  | fault (message : String)
  deriving DecidableEq, Inhabited

/-- The text of a failure, given the text of a value. -/
def Failure.text (value : Value → String) : Failure → String
  | .raised v => "uncaught exception: " ++ value v
  | .panicked message => "task panicked: " ++ message
  | .fault message => "machine fault: " ++ message

/-- How a task ended. -/
abbrev TaskResult := Except Failure Value

/-- What a task sends when it ends. -/
structure ExitMessage where
  task : TaskId
  result : TaskResult
  deriving Inhabited

/-- The bytes that an exit message takes in a buffer: the number of the task, a tag
and a value or a text. -/
def ExitMessage.slotBytes : Nat := 40

/-- Why a task could not be started. -/
inductive TaskError where
  | alreadyStarted (task : TaskId)
  | executorShutdown
  /-- The starting code does not run inside a task. -/
  | noCurrentTask
  deriving DecidableEq, Inhabited

def TaskError.message : TaskError → String
  | .alreadyStarted task => task.text ++ " was already started"
  | .executorShutdown => "executor is shut down"
  | .noCurrentTask => "not running inside a task"

end Resumable
