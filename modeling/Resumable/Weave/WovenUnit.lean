import Resumable.Weave.Transform
import Resumable.Unit.Json

/-!
# Weaving a unit

Classifies a unit and weaves every procedure that suspends.  A procedure that
cannot be woven is passed on and listed among the failures with the reason; the
others are not affected.

The result has a file format: the pretty JSON of its fields.
-/

namespace Resumable

/-- A procedure that was left as it is, and why. -/
structure WeaveFailure where
  proc : ProcId
  reason : String
  deriving DecidableEq, Inhabited

structure WovenUnit where
  name : String
  procedures : List Procedure
  holders : List StateHolder
  failures : List WeaveFailure
  deriving DecidableEq, Inhabited

namespace WovenUnit

/-- The first procedure with an identity. -/
def procedure? (u : WovenUnit) (id : ProcId) : Option Procedure :=
  u.procedures.find? (·.id == id)

end WovenUnit

/-- Weaves a procedure of a classified unit; a recorded error comes before
everything else, and what does not suspend is left alone. -/
def Classification.attempt (c : Classification) (p : Procedure) :
    Except WeaveError (Option WovenProcedure) :=
  match c.errorFor? p.id with
  | some e => .error (.analysis e)
  | none => if c.isSuspending p.id then p.weave c else .ok none

/-- What becomes of a procedure. -/
def Classification.procedureAfter (c : Classification) (p : Procedure) : Procedure :=
  match c.attempt p with
  | .ok (some woven) => woven.procedure
  | _ => p

def Classification.holderOf? (c : Classification) (p : Procedure) : Option StateHolder :=
  match c.attempt p with
  | .ok (some woven) => some woven.holder
  | _ => none

def Classification.failureOf? (c : Classification) (p : Procedure) : Option WeaveFailure :=
  match c.attempt p with
  | .error e => some { proc := p.id, reason := e.message }
  | _ => none

/-- Weaves the procedures of a unit that is already classified. -/
def Classification.weave (c : Classification) (unit : CompilationUnit) : WovenUnit :=
  { name := unit.name
    procedures := unit.procedures.map c.procedureAfter
    holders := unit.procedures.filterMap c.holderOf?
    failures := unit.procedures.filterMap c.failureOf? }

/-- Classifies a unit and weaves it. -/
def CompilationUnit.weave (unit : CompilationUnit) (external : ExternalResolver)
    (config : AnalysisConfig) : WovenUnit :=
  let (c, annotated) := unit.classify external config
  c.weave annotated

/-! ## As JSON -/

open Json (ofList list? cells)

def StateHolder.toJson (h : StateHolder) : Json :=
  .obj [("name", .str h.name), ("procedure", h.procedure.toJson),
    ("fields", ofList LiveSlot.toJson h.fields)]

def StateHolder.ofJson? (j : Json) : Option StateHolder := do
  match ← cells ["name", "procedure", "fields"] j with
  | [name, procedure, fields] =>
    return {
      name := ← name.required Json.string?
      procedure := ← procedure.required ProcId.ofJson?
      fields := ← fields.required (list? LiveSlot.ofJson?) }
  | _ => none

def WeaveFailure.toJson (f : WeaveFailure) : Json :=
  .obj [("proc", f.proc.toJson), ("reason", .str f.reason)]

def WeaveFailure.ofJson? (j : Json) : Option WeaveFailure := do
  match ← cells ["proc", "reason"] j with
  | [proc, reason] =>
    return {
      proc := ← proc.required ProcId.ofJson?
      reason := ← reason.required Json.string? }
  | _ => none

def WovenUnit.toJson (u : WovenUnit) : Json :=
  .obj [("name", .str u.name), ("procedures", ofList Procedure.toJson u.procedures),
    ("holders", ofList StateHolder.toJson u.holders),
    ("failures", ofList WeaveFailure.toJson u.failures)]

def WovenUnit.ofJson? (j : Json) : Option WovenUnit := do
  match ← cells ["name", "procedures", "holders", "failures"] j with
  | [name, procedures, holders, failures] =>
    return {
      name := ← name.required Json.string?
      procedures := ← procedures.required (list? Procedure.ofJson?)
      holders := ← holders.required (list? StateHolder.ofJson?)
      failures := ← failures.orElse (list? WeaveFailure.ofJson?) [] }
  | _ => none

end Resumable
