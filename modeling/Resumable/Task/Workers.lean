import Resumable.Text.CharClass

/-!
# How many workers

The number of workers of an executor, given directly or as the text of a setting.
-/

namespace Resumable

structure WorkerConfig where
  /-- The number of workers; 0 stands for one on every core. -/
  workers : Nat
  /-- What the names of the workers begin with. -/
  threadName : String
  deriving DecidableEq, Inhabited

namespace WorkerConfig

def ofWorkers (workers : Nat) : WorkerConfig :=
  { workers, threadName := "skein-worker" }

/-- One worker on every core. -/
def standard : WorkerConfig := ofWorkers 0

/-- The digits of a number without sign, a plus sign before them allowed. -/
def unsigned? (cs : List Char) : Option Nat :=
  let digits := match cs with
    | '+' :: rest => rest
    | _ => cs
  if digits.isEmpty || !digits.all Char.isDigit then none
  else some (digits.foldl (fun n c => 10 * n + (c.toNat - '0'.toNat)) 0)

/-- A count of 64 bits, with white space around it. -/
def count? (text : String) : Option Nat :=
  let blank (c : Char) := Text.isWhiteSpace c
  let trimmed := ((text.toList.dropWhile blank).reverse.dropWhile blank).reverse
  (unsigned? trimmed).filter (· < UInt64.size)

/-- The configuration for a setting.  One that is missing or is not a count changes
nothing. -/
def ofSetting (setting : Option String) : WorkerConfig :=
  match setting.bind count? with
  | some n => { standard with workers := n }
  | none => standard

/-- The number of workers that are started, on a number of cores. -/
def workerCount (c : WorkerConfig) (cores : Nat) : Nat :=
  if c.workers = 0 then cores else c.workers

end WorkerConfig

end Resumable
