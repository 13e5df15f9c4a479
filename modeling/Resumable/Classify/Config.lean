import Resumable.Json.Basic

/-!
# Configuration of the analysis
-/

namespace Resumable

structure AnalysisConfig where
  /-- Procedures whose owner begins with one of these are never looked into and
  never suspend: platform code that cannot call back into resumable code. -/
  sealedOwners : List String
  /-- A call that leads nowhere is an error and not assumed to return. -/
  strictResolution : Bool
  deriving DecidableEq

namespace AnalysisConfig

def standard : AnalysisConfig :=
  { sealedOwners := ["std."], strictResolution := false }

instance : Inhabited AnalysisConfig := ⟨standard⟩

/-- Whether procedures of the owner are taken not to suspend. -/
def seals (c : AnalysisConfig) (owner : String) : Bool :=
  c.sealedOwners.any fun start => start.toList.isPrefixOf owner.toList

def toJson (c : AnalysisConfig) : Json :=
  .obj [("opaque_prefixes", Json.ofList .str c.sealedOwners),
    ("strict_resolution", .bool c.strictResolution)]

def ofJson? (j : Json) : Option AnalysisConfig := do
  match ← Json.cells ["opaque_prefixes", "strict_resolution"] j with
  | [sealedOwners, strictResolution] =>
    return {
      sealedOwners :=
        ← sealedOwners.orElse (Json.list? Json.string?) standard.sealedOwners
      strictResolution :=
        ← strictResolution.orElse Json.bool? standard.strictResolution }
  | _ => none

end AnalysisConfig

end Resumable
