import Resumable.Proofs.Classify.LeastFixedPoint

/-!
# Units with the same identities

Where a call leads hangs on the types of a unit and on the identities of its procedures, and
on nothing else of them.  So the procedures may be replaced by others with the same
identities (`CallGraph.replacing`), and the call graph treats them as it would have done
before.
-/

namespace Resumable

namespace CallGraph

variable {g : CallGraph} {procedures : List Procedure}

/-- The call graph of the unit with other procedures. -/
def replacing (g : CallGraph) (procedures : List Procedure) : CallGraph :=
  { g with unit := { g.unit with procedures } }

variable (ids : procedures.map Procedure.id = g.unit.procedures.map Procedure.id)
include ids

theorem position?_replacing : (g.replacing procedures).position? = g.position? := by
  funext id
  have through : ∀ ps : List Procedure,
      ps.findIdx? (·.id == id) = (ps.map Procedure.id).findIdx? (· == id) := by
    intro ps
    rw [List.findIdx?_map]
    rfl
  unfold position?
  rw [through, through, ← ids]
  rfl

theorem member?_replacing : (g.replacing procedures).member? = g.member? := by
  have look : (g.replacing procedures).lookMember = g.lookMember := by
    unfold lookMember
    rw [position?_replacing ids]
    rfl
  funext target
  unfold member?
  rw [look]
  rfl

theorem overrides_replacing : (g.replacing procedures).overrides = g.overrides := by
  funext target
  let picked (x : ProcId × Nat) : Option Nat :=
    if x.1.sameMember target && x.1.owner != target.owner && g.isSubtype x.1.owner target.owner then
      some x.2
    else none
  have through : ∀ ps : List Procedure,
      ps.zipIdx.filterMap (fun x => picked (x.1.id, x.2)) =
        (ps.map Procedure.id).zipIdx.filterMap picked := by
    intro ps
    rw [List.zipIdx_map, List.filterMap_map]
    rfl
  exact (through procedures).trans (ids ▸ (through g.unit.procedures).symm)

theorem site_replacing : (g.replacing procedures).site = g.site := by
  unfold site
  rw [member?_replacing ids, overrides_replacing ids]

theorem node_replacing : (g.replacing procedures).node = g.node := by
  have sites : (g.replacing procedures).sites = g.sites := by
    unfold sites
    rw [site_replacing ids]
  have defect : (g.replacing procedures).defect? = g.defect? := by
    unfold defect?
    rw [position?_replacing ids]
  unfold node
  rw [sites, defect]
  rfl

theorem verdicts_replacing : (g.replacing procedures).verdicts = g.verdicts := by
  funext flags
  let picked (x : (ProcId × Bool) × Nat) : Option (ProcId × Verdict) :=
    if g.position? x.1.1 == some x.2 then some (x.1.1, .ofFlag x.1.2) else none
  have through : ∀ ps : List Procedure,
      (ps.zip flags).zipIdx.filterMap (fun x => picked ((x.1.1.id, x.1.2), x.2)) =
        ((ps.map Procedure.id).zip flags).zipIdx.filterMap picked := by
    intro ps
    rw [List.zip_map_left, List.zipIdx_map, List.filterMap_map]
    rfl
  have same : (g.replacing procedures).verdicts flags =
      (procedures.zip flags).zipIdx.filterMap (fun x => picked ((x.1.1.id, x.1.2), x.2)) := by
    unfold verdicts
    rw [position?_replacing ids]
    rfl
  rw [same, through, ids, ← through]
  rfl

end CallGraph

end Resumable
