import Resumable.Proofs.Classify.Defects
import Resumable.Proofs.Keys

/-!
# Units in another order

The analysis finds procedures by their positions, so a unit with its procedures and types in
another order has another call graph (`CallGraph.Reorders`).  But it is the same graph with
other numbers: `CallGraph.place` takes a position of one unit to the position of the same
procedure in the other, and searches, calls and verdicts go along with it.

An identity gets the same verdict (`Reorders.verdict?_eq`) and the same first error
(`Reorders.errorFor?_eq`) in both, and a procedure is marked as in the other
(`Reorders.classified_eq`).
-/

namespace Resumable

/-- A target with the procedures of the unit numbered in another way. -/
def Target.renumber (f : Nat → Nat) : Target → Target
  | .node n => .node (f n)
  | .known v => .known v

namespace CallGraph

/-! ## Positions -/

/-- Two call graphs that differ in the order of the declarations alone. -/
structure Reorders (g g' : CallGraph) : Prop where
  external : g'.external = g.external
  config : g'.config = g.config
  procedures : g'.unit.procedures.Perm g.unit.procedures
  types : g'.unit.types.Perm g.unit.types
  distinct : g.Distinct

/-- The position in another unit of the procedure at a position. -/
def place (g g' : CallGraph) (n : Nat) : Nat :=
  ((g.unit.procedures[n]?).bind fun p => g'.position? p.id).getD 0

namespace Reorders

variable {g g' : CallGraph} {n i : Nat} {p : Procedure}

theorem distinct_reordered (h : g.Reorders g') : g'.Distinct where
  procedures := (h.procedures.map _).nodup_iff.2 h.distinct.procedures
  types := (h.types.map _).nodup_iff.2 h.distinct.types

theorem symm (h : g.Reorders g') : g'.Reorders g where
  external := h.external.symm
  config := h.config.symm
  procedures := h.procedures.symm
  types := h.types.symm
  distinct := h.distinct_reordered

/-- The procedure at a position stands at the place of this position in the other unit. -/
theorem found_place (h : g.Reorders g') (found : g.unit.procedures[n]? = some p) :
    g'.unit.procedures[g.place g' n]? = some p := by
  obtain ⟨m, there⟩ := List.getElem?_of_mem (h.procedures.mem_iff.2 (List.mem_of_getElem? found))
  have position : g'.position? p.id = some m := h.distinct_reordered.position?_eq_some_iff.2 ⟨p, there, rfl⟩
  have same : g.place g' n = m := by
    unfold place
    rw [found, Option.bind_some, position]
    rfl
  rw [same, there]

theorem position?_place (h : g.Reorders g') (found : g.unit.procedures[n]? = some p) :
    g'.position? p.id = some (g.place g' n) :=
  h.distinct_reordered.position?_eq_some_iff.2 ⟨p, h.found_place found, rfl⟩

/-- The way there and back leads to the same position. -/
theorem place_place (h : g.Reorders g') (found : g.unit.procedures[n]? = some p) :
    g'.place g (g.place g' n) = n := by
  have back := h.symm.position?_place (h.found_place found)
  have here : g.position? p.id = some n := h.distinct.position?_eq_some_iff.2 ⟨p, found, rfl⟩
  exact Option.some.inj (back.symm.trans here)

theorem position?_eq (h : g.Reorders g') (id : ProcId) :
    g'.position? id = (g.position? id).map (g.place g') := by
  cases here : g.position? id with
  | some n =>
    obtain ⟨p, found, rfl⟩ := h.distinct.position?_eq_some_iff.1 here
    exact h.position?_place found
  | none =>
    rw [Option.map_none, position?_eq_none_iff]
    intro p mem
    exact position?_eq_none_iff.1 here p (h.procedures.mem_iff.1 mem)

/-! ## Searches -/

theorem decl?_eq (h : g.Reorders g') : g'.decl? = g.decl? := by
  funext name
  refine Option.ext fun t => ?_
  rw [decl?_eq_some_iff h.distinct_reordered.types, decl?_eq_some_iff h.distinct.types, h.types.mem_iff]

theorem searchBound_eq (h : g.Reorders g') : g'.searchBound = g.searchBound := by
  unfold searchBound
  rw [h.external, (h.types.flatMap_right TypeDecl.parents).length_eq]

theorem lookMember_eq (h : g.Reorders g') (target : ProcId) (owner : String) :
    g'.lookMember target owner =
      { children := (g.lookMember target owner).children
        own := (g.lookMember target owner).own.map (Target.renumber (g.place g')) } := by
  unfold lookMember
  rw [h.config, h.decl?_eq, h.external]
  simp only [h.position?_eq]
  split
  · rfl
  · cases Primitive.ofProc? { target with owner } with
    | some which => rfl
    | none =>
      cases g.position? { target with owner } with
      | some index => rfl
      | none =>
        cases g.decl? owner with
        | some decl => rfl
        | none => cases g.external.find? { target with owner } <;> rfl

theorem member?_eq (h : g.Reorders g') (target : ProcId) :
    g'.member? target = (g.member? target).map (Target.renumber (g.place g')) := by
  unfold member?
  rw [firstFound_translated (Target.renumber (g.place g')) (h.lookMember_eq target),
    h.searchBound_eq]

theorem isSubtype_eq (h : g.Reorders g') : g'.isSubtype = g.isSubtype := by
  have parents : g'.parents = g.parents := by
    unfold parents
    rw [h.decl?_eq, h.external]
  unfold isSubtype lookAncestor
  rw [parents, h.searchBound_eq]

end Reorders

/-! ## Calls -/

variable {g g' : CallGraph} {n i block stmt : Nat} {p : Procedure} {func : FunctionRef}

theorem mem_overrides {target : ProcId} : n ∈ g.overrides target ↔
    ∃ p, g.unit.procedures[n]? = some p ∧ p.id.sameMember target = true ∧
      p.id.owner ≠ target.owner ∧ g.isSubtype p.id.owner target.owner = true := by
  unfold overrides
  simp only [List.mem_filterMap, Prod.exists, List.mem_zipIdx_iff_getElem?]
  constructor
  · rintro ⟨p, m, found, chosen⟩
    split at chosen
    · rename_i conditions
      cases chosen
      simp only [Bool.and_eq_true, bne_iff_ne] at conditions
      exact ⟨p, found, conditions.1.1, conditions.1.2, conditions.2⟩
    · cases chosen
  · rintro ⟨p, found, same, proper, derives⟩
    refine ⟨p, n, found, ?_⟩
    rw [if_pos]
    simp [same, proper, derives]

/-- The calls of a procedure with their places in the blocks. -/
def callPlaces (p : Procedure) : List (Nat × Nat × FunctionRef) :=
  p.blocks.zipIdx.flatMap fun (block, b) =>
    block.statements.zipIdx.filterMap fun (stmt, s) => stmt.callee?.map fun func => (b, s, func)

/-- The calls that are followed: all of them, or none. -/
def followed (g : CallGraph) (i : Nat) (p : Procedure) : List (Nat × Nat × FunctionRef) :=
  if (g.defect? i p).isNone && follows p then callPlaces p else []

theorem sites_eq_map (p : Procedure) :
    g.sites p = (callPlaces p).map fun c => g.site c.1 c.2.1 c.2.2 := by
  unfold sites callPlaces
  rw [List.map_flatMap]
  refine List.flatMap_congr fun x _ => ?_
  rw [List.map_filterMap]
  refine List.filterMap_congr fun y _ => ?_
  rw [Option.map_map]
  rfl

theorem node_sites_eq_map (i : Nat) (p : Procedure) :
    (g.node i p).sites = (g.followed i p).map fun c => g.site c.1 c.2.1 c.2.2 := by
  unfold node followed
  simp only
  split
  · exact sites_eq_map p
  · rfl

namespace Reorders

theorem mem_nodes_place (h : g.Reorders g') (mem : n ∈ (g.site block stmt func).nodes) :
    g.place g' n ∈ (g'.site block stmt func).nodes := by
  rw [mem_site_nodes] at mem ⊢
  obtain named | ⟨kind, overrides⟩ := mem
  · left
    rw [h.member?_eq, named]
    rfl
  · obtain ⟨p, found, same, proper, derives⟩ := mem_overrides.1 overrides
    refine Or.inr ⟨kind, mem_overrides.2 ⟨p, h.found_place found, same, proper, ?_⟩⟩
    rwa [h.isSubtype_eq]

theorem site_fixed_eq (h : g.Reorders g') :
    (g'.site block stmt func).fixed = (g.site block stmt func).fixed := by
  refine Option.ext fun v => ?_
  rw [site_fixed, site_fixed, h.member?_eq]
  cases g.member? func.target with
  | none => simp
  | some t => cases t <;> simp [Target.renumber]

theorem site_isUnresolved_eq (h : g.Reorders g') :
    (g'.site block stmt func).isUnresolved = (g.site block stmt func).isUnresolved := by
  have none : (g'.site block stmt func).nodes = [] ↔ (g.site block stmt func).nodes = [] := by
    constructor
    · intro none
      refine List.eq_nil_iff_forall_not_mem.2 fun n mem => ?_
      simpa [none] using h.mem_nodes_place mem
    · intro none
      refine List.eq_nil_iff_forall_not_mem.2 fun n mem => ?_
      simpa [none] using h.symm.mem_nodes_place mem
  unfold Site.isUnresolved
  rw [h.site_fixed_eq, Bool.eq_iff_iff, Bool.and_eq_true, Bool.and_eq_true, List.isEmpty_iff,
    List.isEmpty_iff, none]

/-! ## Procedures -/

section Node

variable (h : g.Reorders g') (found : g.unit.procedures[i]? = some p)
include h found

theorem defect?_eq : g'.defect? (g.place g' i) p = g.defect? i p := by
  have here : g.position? p.id = some i := h.distinct.position?_eq_some_iff.2 ⟨p, found, rfl⟩
  unfold defect?
  rw [h.position?_place found, here, bne_self_eq_false, bne_self_eq_false]

theorem followed_eq : g'.followed (g.place g' i) p = g.followed i p := by
  unfold followed
  rw [h.defect?_eq found]

theorem broken_eq : (g'.node (g.place g' i) p).broken = (g.node i p).broken := by
  have unfolded : ∀ (g : CallGraph) (i : Nat), (g.node i p).broken = ((g.defect? i p).isSome ||
      (g.config.strictResolution && (g.node i p).sites.any Site.isUnresolved)) := fun _ _ => rfl
  rw [unfolded, unfolded, h.defect?_eq found, h.config, node_sites_eq_map, node_sites_eq_map,
    h.followed_eq found]
  simp only [List.any_map, Function.comp_def, h.site_isUnresolved_eq]

theorem isOpen_eq : (g'.node (g.place g' i) p).isOpen = (g.node i p).isOpen := by
  unfold CallNode.isOpen
  rw [h.broken_eq found]
  rfl

theorem isSeed_eq : (g'.node (g.place g' i) p).isSeed = (g.node i p).isSeed := by
  unfold CallNode.isSeed
  rw [h.broken_eq found, node_sites_eq_map, node_sites_eq_map, h.followed_eq found]
  simp only [List.any_map, Function.comp_def, h.site_fixed_eq]
  rfl

theorem unresolved_eq : (g'.node (g.place g' i) p).unresolved = (g.node i p).unresolved := by
  unfold CallNode.unresolved
  rw [node_sites_eq_map, node_sites_eq_map, h.followed_eq found]
  simp only [List.filter_map, List.map_map, Function.comp_def, h.site_isUnresolved_eq]
  rfl

end Node

/-! ## Verdicts -/

end Reorders

/-- An identity that the unit does not have gets no verdict. -/
theorem verdict?_eq_none {id : ProcId} (none : g.position? id = none) :
    g.classification.verdict? id = Option.none := by
  unfold Classification.verdict?
  rw [Option.map_eq_none_iff, List.find?_eq_none]
  rintro ⟨id', v⟩ mem
  obtain ⟨i, p, -, found, -, -, same, -⟩ := mem_verdicts_iff.1 mem
  have other := position?_eq_none_iff.1 none p (List.mem_of_getElem? found)
  simpa [← same] using other

namespace Reorders

theorem suspends_place (h : g.Reorders g') (suspends : Suspends g.nodes i) :
    Suspends g'.nodes (g.place g' i) := by
  induction suspends with
  | own here seed =>
    obtain ⟨p, found, rfl⟩ := found_of_getElem?_nodes here
    refine .own (getElem?_nodes_of_found (h.found_place found)) ?_
    rwa [h.isSeed_eq found]
  | @call i j n s here isOpen site target _ ih =>
    obtain ⟨p, found, rfl⟩ := found_of_getElem?_nodes here
    rw [node_sites_eq_map] at site
    obtain ⟨⟨block, stmt, func⟩, call, rfl⟩ := List.mem_map.1 site
    have site' : g'.site block stmt func ∈ (g'.node (g.place g' i) p).sites := by
      rw [node_sites_eq_map, h.followed_eq found]
      exact List.mem_map.2 ⟨_, call, rfl⟩
    rw [← h.isOpen_eq found] at isOpen
    exact .call (getElem?_nodes_of_found (h.found_place found)) isOpen site'
      (h.mem_nodes_place target) ih

theorem suspends_iff (h : g.Reorders g') (found : g.unit.procedures[i]? = some p) :
    Suspends g'.nodes (g.place g' i) ↔ Suspends g.nodes i := by
  constructor
  · intro suspends
    have back := h.symm.suspends_place suspends
    rwa [h.place_place found] at back
  · exact h.suspends_place

/-- An identity has the same verdict in both units. -/
theorem verdict?_eq (h : g.Reorders g') (id : ProcId) :
    g'.classification.verdict? id = g.classification.verdict? id := by
  cases position : g.position? id with
  | some i =>
    obtain ⟨p, found, rfl⟩ := h.distinct.position?_eq_some_iff.1 position
    obtain ⟨flag, here, verdict⟩ := verdict?_classification position
    obtain ⟨flag', there, verdict'⟩ := verdict?_classification (h.position?_place found)
    have same : flag' = true ↔ flag = true := by
      have suspends := h.suspends_iff found
      rw [← suspendingNodes_iff, ← suspendingNodes_iff, here, there] at suspends
      simpa using suspends
    rw [verdict, verdict', Bool.eq_iff_iff.2 same]
  | none =>
    have position' : g'.position? id = none := by rw [h.position?_eq, position, Option.map_none]
    rw [verdict?_eq_none position, verdict?_eq_none position']

theorem suspends_flags_eq (h : g.Reorders g') :
    (g'.site block stmt func).suspends (suspendingNodes g'.nodes) =
      (g.site block stmt func).suspends (suspendingNodes g.nodes) := by
  have there : ∀ {g g' : CallGraph}, g.Reorders g' →
      (g.site block stmt func).suspends (suspendingNodes g.nodes) = true →
      (g'.site block stmt func).suspends (suspendingNodes g'.nodes) = true := by
    intro g g' h suspends
    rw [Site.suspends_iff] at suspends ⊢
    obtain fixed | ⟨n, mem, flag⟩ := suspends
    · left
      rwa [h.site_fixed_eq]
    · rw [suspendingNodes_iff] at flag
      exact Or.inr ⟨_, h.mem_nodes_place mem, suspendingNodes_iff.2 (h.suspends_place flag)⟩
  exact Bool.eq_iff_iff.2 ⟨there h.symm, there h⟩

/-- The same calls of a procedure are marked. -/
theorem classified_eq (h : g.Reorders g') (found : g.unit.procedures[i]? = some p) :
    (g'.node (g.place g' i) p).classified (suspendingNodes g'.nodes) =
      (g.node i p).classified (suspendingNodes g.nodes) := by
  unfold CallNode.classified annotate
  rw [h.broken_eq found, node_sites_eq_map, node_sites_eq_map, h.followed_eq found]
  simp only [List.filter_map, List.map_map, Function.comp_def, h.suspends_flags_eq]
  rfl

end Reorders

/-! ## Errors -/

/-- The first error that is recorded for a procedure: its defect or, under strict resolution,
the first of its calls that leads nowhere. -/
def firstError? (g : CallGraph) (n : CallNode) : Option AnalysisError :=
  n.defect.or <|
    if g.config.strictResolution then
      n.unresolved.head?.map fun u => .unresolvedCall u.caller u.callee
    else none

theorem Distinct.nodup_nodes (h : g.Distinct) : (g.nodes.map (·.procedure.id)).Nodup := by
  have ids : g.nodes.map (·.procedure.id) = g.unit.procedures.map Procedure.id := by
    unfold nodes
    rw [List.map_map]
    conv_rhs => rw [← List.zipIdx_map_fst 0 g.unit.procedures, List.map_map]
    rfl
  rw [ids]
  exact h.procedures

/-- The errors of an identity are those of the procedure that has it. -/
theorem Distinct.errorFor?_classification (h : g.Distinct) (id : ProcId) :
    g.classification.errorFor? id =
      (g.nodes.find? (·.procedure.id == id)).bind g.firstError? := by
  have defects : (g.nodes.filterMap CallNode.defect).find? (·.procedure == id) =
      (g.nodes.find? (·.procedure.id == id)).bind CallNode.defect := by
    rw [List.filterMap_eq_flatMap_toList, find?_flatMap_of_nodup h.nodup_nodes]
    · simp
    · intro n mem e made
      obtain ⟨i, here⟩ := List.getElem?_of_mem mem
      obtain ⟨p, -, rfl⟩ := found_of_getElem?_nodes here
      exact procedure_defect? (Option.mem_toList.1 made)
  have calls : ((g.nodes.flatMap CallNode.unresolved).map fun u =>
        AnalysisError.unresolvedCall u.caller u.callee).find? (·.procedure == id) =
      (g.nodes.find? (·.procedure.id == id)).bind fun n =>
        n.unresolved.head?.map fun u => .unresolvedCall u.caller u.callee := by
    rw [List.map_flatMap, find?_flatMap_of_nodup h.nodup_nodes]
    · simp
    · intro n mem e made
      simp only [CallNode.unresolved, List.mem_map] at made
      obtain ⟨_, ⟨s, -, rfl⟩, rfl⟩ := made
      rfl
  unfold Classification.errorFor? classification firstError?
  simp only
  rw [List.find?_append, defects]
  cases strict : g.config.strictResolution with
  | true =>
    simp only [if_true]
    rw [calls]
    cases g.nodes.find? (·.procedure.id == id) <;> rfl
  | false =>
    cases g.nodes.find? (·.procedure.id == id) <;> simp

/-- The node of an identity is that of the procedure at its position. -/
theorem Distinct.find?_nodes (h : g.Distinct) (found : g.unit.procedures[i]? = some p) :
    g.nodes.find? (·.procedure.id == p.id) = some (g.node i p) := by
  rw [find?_eq_some_iff_of_nodup h.nodup_nodes]
  exact ⟨List.mem_of_getElem? (getElem?_nodes_of_found found), rfl⟩

theorem find?_nodes_eq_none {id : ProcId} (none : g.position? id = none) :
    g.nodes.find? (·.procedure.id == id) = Option.none := by
  rw [List.find?_eq_none]
  intro n mem
  obtain ⟨i, here⟩ := List.getElem?_of_mem mem
  obtain ⟨p, found, rfl⟩ := found_of_getElem?_nodes here
  rw [beq_iff_eq]
  exact position?_eq_none_iff.1 none p (List.mem_of_getElem? found)

/-- The same error comes first for an identity in both units. -/
theorem Reorders.errorFor?_eq (h : g.Reorders g') (id : ProcId) :
    g'.classification.errorFor? id = g.classification.errorFor? id := by
  rw [h.distinct.errorFor?_classification, h.distinct_reordered.errorFor?_classification]
  cases position : g.position? id with
  | some i =>
    obtain ⟨p, found, rfl⟩ := h.distinct.position?_eq_some_iff.1 position
    rw [h.distinct.find?_nodes found, h.distinct_reordered.find?_nodes (h.found_place found)]
    simp only [Option.bind_some]
    have defect : (g'.node (g.place g' i) p).defect = (g.node i p).defect := h.defect?_eq found
    unfold firstError?
    rw [defect, h.unresolved_eq found, h.config]
  | none =>
    have position' : g'.position? id = none := by rw [h.position?_eq, position, Option.map_none]
    rw [find?_nodes_eq_none position, find?_nodes_eq_none position']
    rfl

end CallGraph

end Resumable
