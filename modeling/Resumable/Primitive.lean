import Resumable.Procedure.Basic

/-!
# Runtime primitives

The procedures that the runtime provides.  They share one owner and are found by
name; the signature of a call is not looked at.  Six of them can give up the
worker, and they are the only source of suspension.
-/

namespace Resumable

inductive Primitive where
  /-- Gives up the worker once, with an optional value for a generator. -/
  | yield
  /-- Waits for a number of milliseconds. -/
  | sleep
  /-- Takes a message, and waits for one. -/
  | get
  /-- Puts a message, and waits for space. -/
  | put
  /-- Takes a message if there is one. -/
  | getNb
  /-- Puts a message if there is space. -/
  | putNb
  /-- Ends the task with a value. -/
  | exit
  /-- Ends the task with a failure. -/
  | errorExit
  /-- Appends a value to the output. -/
  | print
  deriving DecidableEq, Inhabited

namespace Primitive

/-- The declaring type of every primitive. -/
def owner : String := "skein.rt"

def all : List Primitive :=
  [.yield, .sleep, .get, .put, .getNb, .putNb, .exit, .errorExit, .print]

def name : Primitive → String
  | .yield => "yield"
  | .sleep => "sleep"
  | .get => "get"
  | .put => "put"
  | .getNb => "getnb"
  | .putNb => "putnb"
  | .exit => "exit"
  | .errorExit => "error_exit"
  | .print => "print"

def signature : Primitive → String
  | .yield => "(..)"
  | .sleep => "(int)"
  | .get => "(mailbox)->any"
  | .put => "(mailbox,any)"
  | .getNb => "(mailbox)->any"
  | .putNb => "(mailbox,any)->bool"
  | .exit => "(any)"
  | .errorExit => "(any)"
  | .print => "(any)"

def procId (p : Primitive) : ProcId :=
  { owner, name := p.name, signature := p.signature }

/-- The primitive that an identity names, whatever its signature. -/
def ofProc? (id : ProcId) : Option Primitive :=
  if id.owner == owner then all.find? (·.name == id.name) else none

/-- Whether a call of the primitive can give up the worker. -/
def suspends : Primitive → Bool
  | .yield => true
  | .sleep => true
  | .get => true
  | .put => true
  | .getNb => false
  | .putNb => false
  | .exit => true
  | .errorExit => true
  | .print => false

/-- A call that goes to the primitive itself. -/
def call (p : Primitive) : FunctionRef :=
  { target := p.procId, kind := .static }

end Primitive

end Resumable
