import Resumable.Task.Pool

/-!
# Generators

A generator drives a body on a fiber of its own and hands out the values that the
body offers.  It goes on while the body only yields.  Once the body has ended, or
waits for something that nobody would bring, the generator is finished and never
drives it again.
-/

namespace Resumable

structure Generator (σ : Type) where
  body : σ
  fiber : Fiber
  finished : Bool
  deriving Inhabited

/-- What a request for the next item leads to. -/
inductive Draw where
  | item (v : Value)
  | exhausted
  /-- The body broke down. -/
  | panicked (message : String)
  deriving DecidableEq, Inhabited

namespace Generator

variable {σ : Type}

def ofBody (body : σ) : Generator σ :=
  { body, fiber := .detached, finished := false }

/-- Whether the body is driven again after it has given up the worker. -/
def goesOn : Option PauseReason → Bool
  | none => true
  | some .yielded => true
  | some _ => false

/-- The generator after a drive that did not break down. -/
def afterDrive (g : Generator σ) : DriveEnd → Generator σ
  | .pending =>
    let (reason, fiber) := g.fiber.takeReason
    { g with fiber, finished := !goesOn reason }
  | _ => { g with finished := true }

/-- The next item, after a number of drives at most. -/
def next (exec : σ → Drive σ DriveEnd) :
    Nat → Commons → Generator σ → Ending Draw × Commons × Generator σ
  | 0, c, g => (.diverged, c, g)
  | fuel + 1, c, g =>
    if g.finished then (.finished .exhausted, c, g)
    else
      let (ending, scene) := (exec g.body).run { commons := c, fiber := g.fiber, body := g.body }
      let g := { g with body := scene.body, fiber := scene.fiber }
      match ending with
      | .violated message => (.violated message, scene.commons, g)
      | .diverged => (.diverged, scene.commons, g)
      | .finished (.panicked message) => (.finished (.panicked message), scene.commons, g)
      | .finished e =>
        let g := g.afterDrive e
        match g.fiber.takeOffered with
        | (some v, fiber) => (.finished (.item v), scene.commons, { g with fiber })
        | (none, fiber) => next exec fuel scene.commons { g with fiber }

end Generator

end Resumable
