import Resumable.Machine.Body
import Resumable.Script.Basic

/-!
# Bodies

The two kinds of body that a task can be given: a machine and a script.
-/

namespace Resumable

inductive Body where
  | machine (m : Machine)
  | script (s : Script)
  deriving Inhabited

/-- Drives a body once, for a number of steps at most. -/
def Body.execute (names : Names) (fuel : Nat) : Body → Drive Body DriveEnd
  | .machine m => (m.execute fuel).mapState .machine
  | .script s => (s.execute names fuel).mapState .script

end Resumable
