import Resumable.Proofs.Classify.Reordering

/-!
# A second definition

What becomes of the analysis of a unit when a procedure is added whose identity the unit
has already (`CallGraph.adding`).

Calls are resolved as before, with one exception: a virtual call that may run the first
definition as an override may run the second one too (`mem_nodes_adding`).  The second
definition is broken, and its calls do not count.  But it suspends if it is declared so, and
then the callers of the first one do as well.  If the first one suspends in any case, or the
second one is not declared to suspend, all procedures of the unit suspend as before
(`suspends_adding_iff`) and are marked as before (`classified_adding`).

The errors are as before, and one more for the common identity (`errorFor?_adding`).
-/

namespace Resumable

namespace CallGraph

/-- The call graph of the unit with one more procedure. -/
def adding (g : CallGraph) (d : Procedure) : CallGraph :=
  { g with unit := { g.unit with procedures := g.unit.procedures ++ [d] } }

/-- A second definition that suspends by declaration or form does so only if the first one
suspends anyway. -/
def Quiet (g : CallGraph) (d : Procedure) (k : Nat) : Prop :=
  Declared d → Suspends g.nodes k

variable {g : CallGraph} {d p : Procedure} {k n i block stmt : Nat} {func : FunctionRef}

/-- The procedures of the unit keep their positions, and the new one is the last. -/
theorem found_adding_cases (found : (g.adding d).unit.procedures[i]? = some p) :
    g.unit.procedures[i]? = some p ∨ i = g.unit.procedures.length ∧ p = d := by
  have found : (g.unit.procedures ++ [d])[i]? = some p := found
  rcases Nat.lt_trichotomy i g.unit.procedures.length with lt | here | gt
  · exact Or.inl ((List.getElem?_append_left lt).symm.trans found)
  · refine Or.inr ⟨here, ?_⟩
    simpa [here, eq_comm] using found
  · rw [List.getElem?_eq_none (by simpa using Nat.succ_le_of_lt gt)] at found
    cases found

theorem found_adding (found : g.unit.procedures[i]? = some p) :
    (g.adding d).unit.procedures[i]? = some p :=
  (List.getElem?_append_left (List.getElem?_eq_some_iff.1 found).1).trans found

/-! ## Calls -/

/-- A call leads to procedures of the unit. -/
theorem lt_of_mem_site_nodes (mem : n ∈ (g.site block stmt func).nodes) :
    n < g.unit.procedures.length := by
  rcases (mem_site_nodes _ _ _ _).1 mem with named | ⟨-, overrides⟩
  · obtain ⟨owner, own⟩ := exists_own_of_firstFound named
    unfold lookMember at own
    simp only at own
    split at own
    · cases own
    · split at own
      · cases own
      · split at own
        · rename_i index found
          cases own
          exact (List.findIdx?_eq_some_iff_getElem.1 found).1
        · split at own
          · cases own
          · obtain ⟨v, -, known⟩ := Option.map_eq_some_iff.1 own
            cases known
  · obtain ⟨q, found, -⟩ := mem_overrides.1 overrides
    exact (List.getElem?_eq_some_iff.1 found).1

section

variable (first : g.position? d.id = some k)
include first

theorem position?_adding : (g.adding d).position? = g.position? := by
  funext id
  have whole : (g.adding d).position? id = (g.unit.procedures ++ [d]).findIdx? (·.id == id) := rfl
  rw [whole, List.findIdx?_append]
  cases found : g.position? id with
  | some i =>
    unfold position? at found
    rw [found]
    rfl
  | none =>
    have other : d.id ≠ id := by
      rintro rfl
      cases found.symm.trans first
    unfold position? at found
    rw [found]
    simp [List.findIdx?_cons, other]

theorem member?_adding : (g.adding d).member? = g.member? := by
  have look : (g.adding d).lookMember = g.lookMember := by
    unfold lookMember
    rw [position?_adding first]
    rfl
  funext target
  unfold member?
  rw [look]
  rfl

/-- A call leads where it led before.  Where that includes the first definition, it may lead to
the second one as well. -/
theorem mem_nodes_adding (mem : n ∈ ((g.adding d).site block stmt func).nodes) :
    n ∈ (g.site block stmt func).nodes ∨
      n = g.unit.procedures.length ∧ k ∈ (g.site block stmt func).nodes := by
  rw [mem_site_nodes, member?_adding first] at mem
  rcases mem with named | ⟨kind, overrides⟩
  · exact Or.inl ((mem_site_nodes _ _ _ _).2 (Or.inl named))
  · obtain ⟨q, found, same, proper, derives⟩ := mem_overrides.1 overrides
    rcases found_adding_cases found with before | ⟨last, rfl⟩
    · exact Or.inl ((mem_site_nodes _ _ _ _).2
        (Or.inr ⟨kind, mem_overrides.2 ⟨q, before, same, proper, derives⟩⟩))
    · -- the first definition is an override for the same reasons
      obtain ⟨lt, same', -⟩ := List.findIdx?_eq_some_iff_getElem.1 first
      have id : (g.unit.procedures[k]).id = q.id := by simpa using same'
      refine Or.inr ⟨last, (mem_site_nodes _ _ _ _).2 (Or.inr ⟨kind, mem_overrides.2
        ⟨_, List.getElem?_eq_getElem lt, ?_⟩⟩)⟩
      rw [id]
      exact ⟨same, proper, derives⟩

theorem mem_nodes_adding_of_mem (mem : n ∈ (g.site block stmt func).nodes) :
    n ∈ ((g.adding d).site block stmt func).nodes := by
  rw [mem_site_nodes] at mem ⊢
  rw [member?_adding first]
  refine mem.imp_right fun ⟨kind, overrides⟩ => ⟨kind, ?_⟩
  obtain ⟨q, found, conditions⟩ := mem_overrides.1 overrides
  exact mem_overrides.2 ⟨q, found_adding found, conditions⟩

theorem site_fixed_adding :
    ((g.adding d).site block stmt func).fixed = (g.site block stmt func).fixed := by
  refine Option.ext fun v => ?_
  rw [site_fixed, site_fixed, member?_adding first]

theorem site_isUnresolved_adding :
    ((g.adding d).site block stmt func).isUnresolved = (g.site block stmt func).isUnresolved := by
  have none : ((g.adding d).site block stmt func).nodes = [] ↔
      (g.site block stmt func).nodes = [] := by
    rw [List.eq_nil_iff_forall_not_mem, List.eq_nil_iff_forall_not_mem]
    constructor
    · exact fun none n mem => none n (mem_nodes_adding_of_mem first mem)
    · intro none n mem
      rcases mem_nodes_adding first mem with here | ⟨-, here⟩
      · exact none n here
      · exact none k here
  unfold Site.isUnresolved
  rw [site_fixed_adding first, Bool.eq_iff_iff, Bool.and_eq_true, Bool.and_eq_true,
    List.isEmpty_iff, List.isEmpty_iff, none]

/-! ## Procedures -/

theorem defect?_adding : (g.adding d).defect? = g.defect? := by
  funext i p
  unfold defect?
  rw [position?_adding first]

theorem followed_adding : (g.adding d).followed = g.followed := by
  funext i p
  unfold followed
  rw [defect?_adding first]

theorem broken_adding : ((g.adding d).node i p).broken = (g.node i p).broken := by
  rw [node_broken, node_broken, defect?_adding first, node_sites_eq_map, node_sites_eq_map,
    followed_adding first]
  simp only [List.any_map, Function.comp_def, site_isUnresolved_adding first]
  rfl

theorem isOpen_adding : ((g.adding d).node i p).isOpen = (g.node i p).isOpen := by
  unfold CallNode.isOpen
  rw [broken_adding first]
  rfl

theorem isSeed_adding : ((g.adding d).node i p).isSeed = (g.node i p).isSeed := by
  unfold CallNode.isSeed
  rw [broken_adding first, node_sites_eq_map, node_sites_eq_map, followed_adding first]
  simp only [List.any_map, Function.comp_def, site_fixed_adding first]
  rfl

theorem unresolved_adding : ((g.adding d).node i p).unresolved = (g.node i p).unresolved := by
  unfold CallNode.unresolved
  rw [node_sites_eq_map, node_sites_eq_map, followed_adding first]
  simp only [List.filter_map, List.map_map, Function.comp_def, site_isUnresolved_adding first]
  rfl

/-- The second definition is broken, and its calls are not followed. -/
theorem node_duplicate : (g.adding d).node g.unit.procedures.length d =
    ⟨d, some (.duplicateProcedure d.id), [], true⟩ := by
  have lt : k < g.unit.procedures.length := (List.findIdx?_eq_some_iff_getElem.1 first).1
  have defect : g.defect? g.unit.procedures.length d = some (.duplicateProcedure d.id) := by
    unfold defect?
    rw [first, if_pos]
    simpa using Nat.ne_of_lt lt
  unfold node
  rw [defect?_adding first, defect]
  rfl

theorem nodes_adding : (g.adding d).nodes =
    (g.unit.procedures.zipIdx.map fun x => (g.adding d).node x.2 x.1) ++
      [⟨d, some (.duplicateProcedure d.id), [], true⟩] := by
  have whole : (g.adding d).nodes =
      (g.unit.procedures ++ [d]).zipIdx.map fun x => (g.adding d).node x.2 x.1 := rfl
  rw [whole, List.zipIdx_append, List.map_append, Nat.zero_add]
  simp [node_duplicate first]

/-! ## Verdicts -/

theorem suspends_adding (suspends : Suspends g.nodes i) : Suspends (g.adding d).nodes i := by
  induction suspends with
  | own here seed =>
    obtain ⟨p, found, rfl⟩ := found_of_getElem?_nodes here
    exact .own (getElem?_nodes_of_found (found_adding found)) ((isSeed_adding first).trans seed)
  | call here isOpen site target _ ih =>
    obtain ⟨p, found, rfl⟩ := found_of_getElem?_nodes here
    rw [node_sites_eq_map] at site
    obtain ⟨⟨block, stmt, func⟩, call, rfl⟩ := List.mem_map.1 site
    refine .call (getElem?_nodes_of_found (found_adding found))
      ((isOpen_adding first).trans isOpen) ?_ (mem_nodes_adding_of_mem first target) ih
    rw [node_sites_eq_map, followed_adding first]
    exact List.mem_map.2 ⟨_, call, rfl⟩

/-- What suspends with the second definition suspended before, with the first one in the place
of the second. -/
theorem suspends_of_adding (quiet : g.Quiet d k) (suspends : Suspends (g.adding d).nodes i) :
    (i < g.unit.procedures.length → Suspends g.nodes i) ∧
      (i = g.unit.procedures.length → Suspends g.nodes k) := by
  have look : ∀ {i : Nat} {n : CallNode}, (g.adding d).nodes[i]? = some n →
      (∃ p, g.unit.procedures[i]? = some p ∧ (g.adding d).node i p = n) ∨
        i = g.unit.procedures.length ∧ n = ⟨d, some (.duplicateProcedure d.id), [], true⟩ := by
    intro i n here
    obtain ⟨q, found, rfl⟩ := found_of_getElem?_nodes here
    rcases found_adding_cases found with before | ⟨rfl, rfl⟩
    · exact Or.inl ⟨q, before, rfl⟩
    · exact Or.inr ⟨rfl, node_duplicate first⟩
  induction suspends with
  | own here seed =>
    rcases look here with ⟨p, found, rfl⟩ | ⟨same, rfl⟩
    · have lt := (List.getElem?_eq_some_iff.1 found).1
      rw [isSeed_adding first] at seed
      exact ⟨fun _ => .own (getElem?_nodes_of_found found) seed,
        fun same => absurd same (Nat.ne_of_lt lt)⟩
    · refine ⟨fun lt => absurd same (Nat.ne_of_lt lt), fun _ => quiet ?_⟩
      simp only [CallNode.isSeed, Bool.and_eq_true, Bool.not_eq_true', Bool.or_eq_true] at seed
      obtain ⟨plain, marked | none⟩ := seed
      · exact ⟨plain, marked⟩
      · simp at none
  | @call i j n s here isOpen site target _ ih =>
    rcases look here with ⟨p, found, rfl⟩ | ⟨same, rfl⟩
    · have lt := (List.getElem?_eq_some_iff.1 found).1
      refine ⟨fun _ => ?_, fun same => absurd same (Nat.ne_of_lt lt)⟩
      rw [isOpen_adding first] at isOpen
      rw [node_sites_eq_map, followed_adding first] at site
      obtain ⟨⟨block, stmt, func⟩, call, rfl⟩ := List.mem_map.1 site
      have site' : g.site block stmt func ∈ (g.node i p).sites := by
        rw [node_sites_eq_map]
        exact List.mem_map.2 ⟨_, call, rfl⟩
      rcases mem_nodes_adding first target with before | ⟨last, before⟩
      · exact .call (getElem?_nodes_of_found found) isOpen site' before
          (ih.1 (lt_of_mem_site_nodes before))
      · exact .call (getElem?_nodes_of_found found) isOpen site' before (ih.2 last)
    · cases site

theorem suspends_adding_iff (quiet : g.Quiet d k) (lt : i < g.unit.procedures.length) :
    Suspends (g.adding d).nodes i ↔ Suspends g.nodes i :=
  ⟨fun suspends => (suspends_of_adding first quiet suspends).1 lt, suspends_adding first⟩

theorem verdict?_adding (quiet : g.Quiet d k) {id : ProcId} {j : Nat}
    (position : g.position? id = some j) :
    (g.adding d).classification.verdict? id = g.classification.verdict? id := by
  obtain ⟨flag, here, verdict⟩ := verdict?_classification position
  obtain ⟨flag', there, verdict'⟩ :=
    verdict?_classification ((congrFun (position?_adding first) id).trans position)
  have lt : j < g.unit.procedures.length := (List.findIdx?_eq_some_iff_getElem.1 position).1
  have same : flag' = true ↔ flag = true := by
    have suspends := suspends_adding_iff first quiet lt
    rw [← suspendingNodes_iff, ← suspendingNodes_iff, here, there] at suspends
    simpa using suspends
  rw [verdict, verdict', Bool.eq_iff_iff.2 same]

theorem suspends_flags_adding (quiet : g.Quiet d k) :
    ((g.adding d).site block stmt func).suspends (suspendingNodes (g.adding d).nodes) =
      (g.site block stmt func).suspends (suspendingNodes g.nodes) := by
  rw [Bool.eq_iff_iff, Site.suspends_iff, Site.suspends_iff, site_fixed_adding first]
  refine or_congr_right ⟨?_, ?_⟩
  · rintro ⟨n, mem, flag⟩
    have suspends := suspends_of_adding first quiet (suspendingNodes_iff.1 flag)
    rcases mem_nodes_adding first mem with before | ⟨last, before⟩
    · exact ⟨n, before, suspendingNodes_iff.2 (suspends.1 (lt_of_mem_site_nodes before))⟩
    · exact ⟨k, before, suspendingNodes_iff.2 (suspends.2 last)⟩
  · rintro ⟨n, mem, flag⟩
    exact ⟨n, mem_nodes_adding_of_mem first mem,
      suspendingNodes_iff.2 (suspends_adding first (suspendingNodes_iff.1 flag))⟩

/-- The same calls are marked. -/
theorem classified_adding (quiet : g.Quiet d k) :
    ((g.adding d).node i p).classified (suspendingNodes (g.adding d).nodes) =
      (g.node i p).classified (suspendingNodes g.nodes) := by
  unfold CallNode.classified annotate
  rw [broken_adding first, node_sites_eq_map, node_sites_eq_map, followed_adding first]
  simp only [List.filter_map, List.map_map, Function.comp_def, suspends_flags_adding first quiet]
  rfl

/-! ## Errors -/

theorem errors_adding : ∃ defects calls, g.classification.errors = defects ++ calls ∧
    (g.adding d).classification.errors =
      defects ++ [.duplicateProcedure d.id] ++ calls := by
  have nodes : ∀ {α : Type} (data : CallNode → α),
      (∀ i p, data ((g.adding d).node i p) = data (g.node i p)) →
      (g.adding d).nodes.map data =
        g.nodes.map data ++ [data ⟨d, some (.duplicateProcedure d.id), [], true⟩] := by
    intro α data same
    rw [nodes_adding first, List.map_append, List.map_map, CallGraph.nodes, List.map_map]
    exact congrArg (· ++ _) (List.map_congr_left fun x _ => same x.2 x.1)
  have defects := nodes CallNode.defect fun i p => congrFun (congrFun (defect?_adding first) i) p
  have unresolved := nodes CallNode.unresolved fun i p => unresolved_adding first
  have form : ∀ g : CallGraph, g.classification.errors =
      (g.nodes.map CallNode.defect).filterMap id ++
        if g.config.strictResolution then
          ((g.nodes.map CallNode.unresolved).flatten).map fun u => .unresolvedCall u.caller u.callee
        else [] := by
    intro g
    rw [List.filterMap_map]
    rfl
  have config : (g.adding d).config = g.config := rfl
  refine ⟨_, _, form g, ?_⟩
  rw [form, defects, unresolved, config, List.filterMap_append, List.flatten_append]
  simp [CallNode.unresolved]

/-- An error is recorded for the identity of the second definition; for the others nothing
changes. -/
theorem errorFor?_adding {id : ProcId} :
    (id = d.id → ∃ e, (g.adding d).classification.errorFor? id = some e) ∧
      (id ≠ d.id → (g.adding d).classification.errorFor? id = g.classification.errorFor? id) := by
  obtain ⟨defects, calls, before, after⟩ := errors_adding first
  unfold Classification.errorFor?
  rw [before, after]
  constructor
  · rintro rfl
    rw [← Option.isSome_iff_exists, List.find?_isSome]
    exact ⟨.duplicateProcedure d.id, by simp, by simp [AnalysisError.procedure]⟩
  · intro other
    have passed : (AnalysisError.duplicateProcedure d.id).procedure ≠ id :=
      fun same => other same.symm
    rw [List.find?_append, List.find?_append, List.find?_append,
      List.find?_cons_of_neg (by simpa using passed)]
    simp

end

end CallGraph

end Resumable
