import Resumable.Task.Drive

/-!
# Scripts

A script is a body given as a list of actions.  It keeps its place in the list: a
drive goes on from there and ends when an action ends it.  Past the last action it
completes with unit.

Mailboxes and tasks occur in a script by name, and a name is looked up when the
action is reached.  An action that nobody knows, or a name that nobody has given,
ends the drive with a fault.
-/

namespace Resumable

/-- A value as a script writes it. -/
inductive Literal where
  | value (v : Value)
  | mailbox (name : String)
  /-- Text that stands for no value. -/
  | unknown
  deriving DecidableEq, Inhabited

/-- A failure as a script writes it. -/
inductive FailureLiteral where
  | raised (value : Literal)
  | panicked (message : String)
  | fault (message : String)
  deriving DecidableEq, Inhabited

/-- The message of a breakdown that brings none. -/
def unknownPanic : String := "unknown panic"

inductive Action where
  /-- Takes a message; stays here until there is one. -/
  | get (box : String)
  /-- Takes a message, or registers for one and goes on. -/
  | getOnce (box : String)
  | put (box : String) (message : Literal)
  | putOnce (box : String) (message : Literal)
  | getNb (box : String)
  | putNb (box : String) (message : Literal)
  | yield
  | yieldValue (value : Literal)
  | exit (value : Literal)
  | errorExit (failure : FailureLiteral)
  /-- Waits until a flag is raised. -/
  | pause (condition : Condition)
  /-- Stops without a reason. -/
  | pending
  | ret (value : Literal)
  | fail (failure : FailureLiteral)
  | panic (message : String)
  | violate (message : String)
  | start (task : String)
  | resume (task : String)
  /-- Reports the current task. -/
  | current
  /-- Reports the fiber. -/
  | debug
  /-- Reports a text. -/
  | log (text : String)
  | setFlag (flag : String) (raised : Bool)
  | shutdown
  /-- Stays here until a time has passed. -/
  | sleep (delay : Nat)
  /-- Jumps back to a position a number of times, then goes on. -/
  | loop (target times : Nat)
  | unknown
  deriving DecidableEq, Inhabited

/-- The names that scripts can use. -/
structure Names where
  boxes : List (String × MailboxId)
  tasks : List (String × TaskId)
  deriving DecidableEq, Inhabited

namespace Names

def empty : Names := { boxes := [], tasks := [] }

def box? (n : Names) (name : String) : Option MailboxId := n.boxes.lookup name

def task? (n : Names) (name : String) : Option TaskId := n.tasks.lookup name

/-- Gives a name to a mailbox; an older use of the name is forgotten. -/
def withBox (n : Names) (name : String) (id : MailboxId) : Names :=
  { n with boxes := n.boxes.filter (·.1 ≠ name) ++ [(name, id)] }

def withTask (n : Names) (name : String) (id : TaskId) : Names :=
  { n with tasks := n.tasks.filter (·.1 ≠ name) ++ [(name, id)] }

/-- The first name of a mailbox. -/
def ofBox? (n : Names) (id : MailboxId) : Option String :=
  (n.boxes.find? (·.2 == id)).map Prod.fst

def ofTask? (n : Names) (id : TaskId) : Option String :=
  (n.tasks.find? (·.2 == id)).map Prod.fst

/-- The value that a literal stands for. -/
def value? (n : Names) : Literal → Option Value
  | .value v => some v
  | .mailbox name => (n.box? name).map .mailbox
  | .unknown => none

def failure? (n : Names) : FailureLiteral → Option Failure
  | .raised v => (n.value? v).map .raised
  | .panicked message => some (.panicked message)
  | .fault message => some (.fault message)

end Names

structure Script where
  /-- The name under which the script reports. -/
  who : String
  actions : List Action
  /-- The position of the next action. -/
  position : Nat
  /-- How often each loop has jumped, by its position. -/
  jumps : List (Nat × Nat)
  /-- The mailbox of a sleep that is going on. -/
  alarm : Option MailboxId
  deriving DecidableEq, Inhabited

namespace Script

def ofActions (who : String) (actions : List Action) : Script :=
  { who, actions, position := 0, jumps := [], alarm := none }

/-- The script one action further on. -/
def pastAction (s : Script) : Script := { s with position := s.position + 1 }

/-- The script at the action that was just passed. -/
def stayed (s : Script) : Script := { s with position := s.position - 1 }

/-- The script after a loop, which is just passed: back at `target`, or further on
with the count of the loop at 0 again. -/
def looped (s : Script) (target times : Nat) : Script :=
  let here := s.position - 1
  let count := (s.jumps.lookup here).getD 0
  let others := s.jumps.filter (·.1 ≠ here)
  if count < times then { s with position := target, jumps := (here, count + 1) :: others }
  else { s with jumps := others }

/-! ## Actions at work -/

/-- What an action leads to: the script after it, and how the drive ends if it ends
here. -/
abbrev Effect := Script × Option DriveEnd

/-- The end of a drive at an action that makes no sense. -/
def nonsense (s : Script) : Effect :=
  (s, some (.ready (.error (.fault "bad script: \x7b\"error\":\"BadInput\"\x7d"))))

/-- Goes on if there is what the action needs. -/
def needing {α : Type} (s : Script) (thing : Option α) (act : α → Drive Script Effect) :
    Drive Script Effect :=
  match thing with
  | some a => act a
  | none => return s.nonsense

def say (s : Script) (event : Event) : Drive Script Unit :=
  Drive.request (.report s.who event)

/-- Ends the drive with a reason to pause. -/
def stop (s : Script) (reason : PauseReason) : Drive Script Effect := do
  Drive.request (.pause reason)
  return (s, some .pending)

/-- Polls the alarm of a sleep. -/
def pollAlarm (s : Script) (alarm : MailboxId) : Drive Script Effect := do
  match ← Drive.request (.get alarm) with
  | some _ => return ({ s with alarm := none }, none)
  | none => return (s.stayed, some .pending)

/-- Takes a message, and if there is none ends in `waiting`. -/
def takeOr (s : Script) (box : MailboxId) (waiting : Effect) : Drive Script Effect := do
  match ← Drive.request (.get box) with
  | some v =>
    s.say (.got v)
    return (s, none)
  | none =>
    s.say .getWaits
    return waiting

/-- Puts a message, and if there is no space ends in `waiting`. -/
def giveOr (s : Script) (box : MailboxId) (v : Value) (waiting : Effect) :
    Drive Script Effect := do
  match ← Drive.request (.put box v) with
  | true =>
    s.say .put
    return (s, none)
  | false =>
    s.say (.putWaits v)
    return waiting

/-- Runs an action; `s` is the script past it. -/
def act (names : Names) (s : Script) : Action → Drive Script Effect
  | .get box => s.needing (names.box? box) fun box => s.takeOr box (s.stayed, some .pending)
  | .getOnce box => s.needing (names.box? box) fun box => s.takeOr box (s, none)
  | .put box v =>
    s.needing (names.box? box) fun box => s.needing (names.value? v) fun v =>
      s.giveOr box v (s.stayed, some .pending)
  | .putOnce box v =>
    s.needing (names.box? box) fun box => s.needing (names.value? v) fun v =>
      s.giveOr box v (s, none)
  | .getNb box => s.needing (names.box? box) fun box => do
    s.say (.getNb (← Drive.request (.getNb box)))
    return (s, none)
  | .putNb box v =>
    s.needing (names.box? box) fun box => s.needing (names.value? v) fun v => do
      s.say (.putNb (← Drive.request (.putNb box v)))
      return (s, none)
  | .yield => s.stop .yielded
  | .yieldValue v => s.needing (names.value? v) fun v => do
    Drive.request (.offer v)
    s.stop .yielded
  | .exit v => s.needing (names.value? v) fun v => s.stop (.done (.ok v))
  | .errorExit f => s.needing (names.failure? f) fun f => s.stop (.done (.error f))
  | .pause condition => s.stop (.custom condition)
  | .pending => return (s, some .pending)
  | .ret v => s.needing (names.value? v) fun v => return (s, some (.ready (.ok v)))
  | .fail f => s.needing (names.failure? f) fun f => return (s, some (.ready (.error f)))
  | .panic message => return (s, some (.panicked message))
  | .violate message => .violate message
  | .start task => s.needing (names.task? task) fun task => do
    s.say (.started (← Drive.request (.start task)))
    return (s, none)
  | .resume task => s.needing (names.task? task) fun task => do
    Drive.request (.resume task)
    return (s, none)
  | .current => do
    s.say (.current (← Drive.request .currentTask))
    return (s, none)
  | .debug => do
    s.say (.fiber (← Drive.request .fiberText))
    return (s, none)
  | .log text => do
    s.say (.said text)
    return (s, none)
  | .setFlag flag raised => do
    Drive.request (.setFlag flag raised)
    return (s, none)
  | .shutdown => do
    Drive.request .shutdown
    return (s, none)
  | .sleep delay =>
    match s.alarm with
    | some alarm => s.pollAlarm alarm
    | none => do
      let alarm ← Drive.request (.makeBox 1)
      Drive.request (.timer delay alarm .unit)
      let s := { s with alarm := some alarm }
      Drive.store s
      s.pollAlarm alarm
  | .loop target times => return (s.looped target times, none)
  | .unknown => return s.nonsense

/-- Drives a script once, for a number of actions at most.  The place is moved on
before an action acts. -/
def execute (names : Names) : Nat → Script → Drive Script DriveEnd
  | 0, _ => .diverge
  | fuel + 1, s =>
    match s.actions[s.position]? with
    | none => return .ready (.ok .unit)
    | some action => do
      Drive.store s.pastAction
      let (s, ending) ← s.pastAction.act names action
      Drive.store s
      match ending with
      | some e => return e
      | none => execute names fuel s

end Script

end Resumable
