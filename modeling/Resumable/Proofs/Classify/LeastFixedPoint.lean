import Resumable.Proofs.Classify.Closure
import Resumable.Proofs.Classify.Resolution
import Resumable.Procedure.Builder

/-!
# The verdicts are a least fixed point

A procedure suspends for a reason of its own, or because a chain of calls leads from
it to something that suspends.  `Broken` and `Active` say which procedures take part
in such chains, `Passes` is one call of a chain and `Arrives` the call at its end.

`verdict?_eq_suspending_iff` is the main statement.  Types may derive from each other and
procedures may call each other in circles.
-/

namespace Resumable

namespace CallGraph

/-- A procedure that cannot be trusted: its graph is malformed, it is a bridge without
exactly one call, or, under strict resolution, one of its calls leads nowhere. -/
inductive Broken (g : CallGraph) (p : Procedure) : Prop
  | malformed (h : p.validate ≠ .ok ())
  | bridge (h : p.attrs.bridge = true) (calls : p.calls.length ≠ 1)
  | unresolved (strict : g.config.strictResolution = true) (follows : follows p = true)
      {func : FunctionRef} (call : func ∈ bodyCalls p) (nowhere : ∀ t, ¬ g.LeadsTo func t)

/-- A procedure whose calls count. -/
structure Active (g : CallGraph) (p : Procedure) : Prop where
  unbroken : ¬ g.Broken p
  unwoven : p.attrs.woven = false
  body : p.hasBody = true
  notInitializer : p.id.isInitializer = false

/-- A procedure that suspends by declaration or by its form. -/
structure Declared (p : Procedure) : Prop where
  notInitializer : p.id.isInitializer = false
  marked : p.attrs.suspendMarker = true ∨ p.attrs.woven = true

/-- A call from one procedure whose calls count to another one. -/
structure Passes (g : CallGraph) (p q : Procedure) : Prop where
  source : g.Active p
  target : g.Active q
  call : ∃ func ∈ bodyCalls p, ∃ n, g.LeadsTo func (.node n) ∧ g.unit.procedures[n]? = some q

/-- A call that leads to something that suspends for a reason of its own. -/
structure Arrives (g : CallGraph) (p : Procedure) : Prop where
  source : g.Active p
  call : ∃ func ∈ bodyCalls p, g.LeadsTo func (.known .suspending) ∨
    ∃ n q, g.LeadsTo func (.node n) ∧ g.unit.procedures[n]? = some q ∧ Declared q

variable {g : CallGraph}

theorem Active.follows {p : Procedure} (h : g.Active p) : follows p = true := by
  simp [CallGraph.follows, h.unwoven, h.body, h.notInitializer]

/-! ## The nodes of the call graph -/

theorem getElem?_nodes (i : Nat) :
    g.nodes[i]? = (g.unit.procedures[i]?).map (g.node i) := by
  simp [nodes, List.getElem?_map, List.getElem?_zipIdx, Option.map_map, Function.comp_def]

/-- Every node is that of a procedure. -/
theorem found_of_getElem?_nodes {i : Nat} {n : CallNode} (here : g.nodes[i]? = some n) :
    ∃ p, g.unit.procedures[i]? = some p ∧ g.node i p = n := by
  rwa [getElem?_nodes, Option.map_eq_some_iff] at here

section Node

variable {i : Nat} {p : Procedure}

theorem node_sites_eq {s : Site} (mem : s ∈ (g.node i p).sites) :
    (g.node i p).sites = g.sites p ∧ follows p = true := by
  unfold node at mem ⊢
  simp only at mem ⊢
  split at mem
  · rename_i condition
    simp only [Bool.and_eq_true] at condition
    exact ⟨if_pos (by simpa using condition), condition.2⟩
  · simp at mem

theorem Distinct.defect?_isSome_iff (h : g.Distinct) (found : g.unit.procedures[i]? = some p) :
    (g.defect? i p).isSome = true ↔
      p.validate ≠ .ok () ∨ p.attrs.bridge = true ∧ p.calls.length ≠ 1 := by
  have first : g.position? p.id = some i := h.position?_eq_some_iff.2 ⟨p, found, rfl⟩
  unfold defect?
  rw [first, bne_self_eq_false, if_neg Bool.false_ne_true]
  cases valid : p.validate with
  | error e => simp
  | ok u =>
    simp only
    split
    · rename_i condition
      simpa using condition
    · rename_i condition
      simpa using condition

theorem Distinct.node_broken_iff (h : g.Distinct) (bounded : g.external.Bounded)
    (found : g.unit.procedures[i]? = some p) :
    (g.node i p).broken = true ↔ g.Broken p := by
  have defect := h.defect?_isSome_iff found
  have unfolded : (g.node i p).broken = ((g.defect? i p).isSome ||
      (g.config.strictResolution && (g.node i p).sites.any Site.isUnresolved)) := rfl
  rw [unfolded, Bool.or_eq_true, Bool.and_eq_true, List.any_eq_true, defect]
  constructor
  · rintro ((malformed | ⟨bridge, calls⟩) | ⟨strict, s, site, unresolved⟩)
    · exact .malformed malformed
    · exact .bridge bridge calls
    · obtain ⟨all, follows⟩ := node_sites_eq site
      obtain ⟨func, call, b, k, rfl⟩ := exists_call_of_mem_sites (all ▸ site)
      exact .unresolved strict follows call ((site_isUnresolved_iff h bounded).1 unresolved)
  · intro broken
    cases broken with
    | malformed malformed => exact Or.inl (Or.inl malformed)
    | bridge bridge calls => exact Or.inl (Or.inr ⟨bridge, calls⟩)
    | unresolved strict follows call nowhere =>
      rw [← defect]
      cases none : (g.defect? i p).isSome with
      | true => exact Or.inl rfl
      | false =>
        refine Or.inr ⟨strict, ?_⟩
        obtain ⟨b, k, site⟩ := exists_site_of_mem_bodyCalls (g := g) call
        refine ⟨g.site b k _, ?_, (site_isUnresolved_iff h bounded).2 nowhere⟩
        have sites : (g.node i p).sites = g.sites p := by
          unfold node
          simp only [Option.isSome_eq_false_iff] at none
          simp [none, follows]
        rwa [sites]

theorem Distinct.node_sites (h : g.Distinct) (found : g.unit.procedures[i]? = some p)
    (active : g.Active p) : (g.node i p).sites = g.sites p := by
  have sound : (g.defect? i p).isNone = true := by
    rw [← Option.not_isSome, Bool.not_eq_true', ← Bool.not_eq_true, h.defect?_isSome_iff found]
    rintro (malformed | ⟨bridge, calls⟩)
    · exact active.unbroken (.malformed malformed)
    · exact active.unbroken (.bridge bridge calls)
  unfold node
  simp only
  rw [if_pos (by rw [sound, active.follows]; rfl)]

theorem Distinct.active_of_site (h : g.Distinct) (bounded : g.external.Bounded)
    (found : g.unit.procedures[i]? = some p) {s : Site} (site : s ∈ (g.node i p).sites)
    (unbroken : (g.node i p).broken = false) : g.Active p := by
  obtain ⟨-, followed⟩ := node_sites_eq site
  simp only [follows, Bool.and_eq_true, Bool.not_eq_true'] at followed
  refine ⟨?_, followed.1.1, followed.1.2, followed.2⟩
  rw [← h.node_broken_iff bounded found]
  simp [unbroken]

end Node

/-! ## Chains of calls -/

/-- A node that the rounds reach is declared or starts a chain of calls. -/
theorem Distinct.chain_of_suspends (h : g.Distinct) (bounded : g.external.Bounded) {i : Nat}
    {p : Procedure} (found : g.unit.procedures[i]? = some p) (suspends : Suspends g.nodes i) :
    Declared p ∨ ∃ q, Relation.ReflTransGen g.Passes p q ∧ g.Arrives q := by
  induction suspends generalizing p with
  | @own i n node seed =>
    obtain rfl : g.node i p = n := by simpa [getElem?_nodes, found] using node
    unfold CallNode.isSeed at seed
    simp only [Bool.and_eq_true, Bool.not_eq_true', Bool.or_eq_true, List.any_eq_true,
      beq_iff_eq] at seed
    obtain ⟨notInit, marked | ⟨unbroken, s, site, fixed⟩⟩ := seed
    · exact Or.inl ⟨notInit, marked⟩
    · obtain ⟨all, -⟩ := node_sites_eq site
      obtain ⟨func, call, b, k, rfl⟩ := exists_call_of_mem_sites (all ▸ site)
      have active := h.active_of_site bounded found site unbroken
      exact Or.inr ⟨p, .refl, active, func, call, Or.inl ((site_fixed_iff h).1 fixed)⟩
  | @call i j n s node isOpen site target _ ih =>
    obtain rfl : g.node i p = n := by simpa [getElem?_nodes, found] using node
    simp only [CallNode.isOpen, Bool.and_eq_true, Bool.not_eq_true'] at isOpen
    obtain ⟨all, -⟩ := node_sites_eq site
    obtain ⟨func, call, b, k, rfl⟩ := exists_call_of_mem_sites (all ▸ site)
    have active := h.active_of_site bounded found site isOpen.2
    have leads := (mem_site_nodes_iff h bounded).1 target
    obtain ⟨q, there⟩ := leads.procedure
    right
    rcases ih there with declared | ⟨r, chain, arrives⟩
    · exact ⟨p, .refl, active, func, call, Or.inr ⟨j, q, leads, there, declared⟩⟩
    · have next : g.Active q := by
        rcases Relation.ReflTransGen.cases_head chain with rfl | ⟨_, passes, -⟩
        · exact arrives.source
        · exact passes.source
      exact ⟨r, .head ⟨active, next, func, call, j, leads, there⟩ chain, arrives⟩

theorem getElem?_nodes_of_found {i : Nat} {p : Procedure}
    (found : g.unit.procedures[i]? = some p) : g.nodes[i]? = some (g.node i p) := by
  rw [getElem?_nodes, found]
  rfl

theorem suspends_of_declared {i : Nat} {p : Procedure}
    (found : g.unit.procedures[i]? = some p) (declared : Declared p) : Suspends g.nodes i := by
  refine .own (getElem?_nodes_of_found found) ?_
  have mark : (p.attrs.suspendMarker || p.attrs.woven) = true := by
    simpa using declared.marked
  simp [CallNode.isSeed, node, declared.notInitializer, mark]

theorem Distinct.isOpen_of_active (h : g.Distinct) (bounded : g.external.Bounded) {i : Nat}
    {p : Procedure} (found : g.unit.procedures[i]? = some p) (active : g.Active p) :
    (g.node i p).isOpen = true := by
  have unbroken : (g.node i p).broken = false := by
    rw [← Bool.not_eq_true, h.node_broken_iff bounded found]
    exact active.unbroken
  have notInit : (g.node i p).procedure.id.isInitializer = false := active.notInitializer
  simp [CallNode.isOpen, unbroken, notInit]

theorem Distinct.exists_site_of_active (h : g.Distinct) {i : Nat} {p : Procedure}
    (found : g.unit.procedures[i]? = some p) (active : g.Active p) {func : FunctionRef}
    (call : func ∈ bodyCalls p) : ∃ b k, g.site b k func ∈ (g.node i p).sites := by
  obtain ⟨b, k, mem⟩ := exists_site_of_mem_bodyCalls (g := g) call
  rw [← h.node_sites found active] at mem
  exact ⟨b, k, mem⟩

/-- The rounds reach every node that starts a chain of calls. -/
theorem Distinct.suspends_of_chain (h : g.Distinct) (bounded : g.external.Bounded) {i : Nat}
    {p q : Procedure} (found : g.unit.procedures[i]? = some p)
    (chain : Relation.ReflTransGen g.Passes p q) (arrives : g.Arrives q) :
    Suspends g.nodes i := by
  induction chain using Relation.ReflTransGen.head_induction_on generalizing i with
  | refl =>
    obtain ⟨active, func, call, ends⟩ := arrives
    obtain ⟨b, k, mem⟩ := h.exists_site_of_active found active call
    have isOpen := h.isOpen_of_active bounded found active
    rcases ends with fixed | ⟨n, r, leads, there, declared⟩
    · have seed := CallNode.isSeed_of_fixed isOpen mem ((site_fixed_iff h).2 fixed)
      exact .own (getElem?_nodes_of_found found) seed
    · exact .call (getElem?_nodes_of_found found) isOpen mem
        ((mem_site_nodes_iff h bounded).2 leads) (suspends_of_declared there declared)
  | head passes _ ih =>
    obtain ⟨active, -, func, call, n, leads, there⟩ := passes
    obtain ⟨b, k, mem⟩ := h.exists_site_of_active found active call
    exact .call (getElem?_nodes_of_found found) (h.isOpen_of_active bounded found active) mem
      ((mem_site_nodes_iff h bounded).2 leads) (ih there)

/-- The set that the rounds compute, in terms of chains of calls. -/
theorem Distinct.suspends_iff (h : g.Distinct) (bounded : g.external.Bounded) {i : Nat}
    {p : Procedure} (found : g.unit.procedures[i]? = some p) :
    Suspends g.nodes i ↔
      Declared p ∨ ∃ q, Relation.ReflTransGen g.Passes p q ∧ g.Arrives q := by
  constructor
  · exact h.chain_of_suspends bounded found
  · intro starts
    rcases starts with declared | ⟨q, chain, arrives⟩
    · exact suspends_of_declared found declared
    · exact h.suspends_of_chain bounded found chain arrives

/-! ## The verdicts -/

theorem mem_verdicts_iff {flags : List Bool} {id : ProcId} {v : Verdict} :
    (id, v) ∈ g.verdicts flags ↔ ∃ (i : Nat) (p : Procedure) (flag : Bool),
      g.unit.procedures[i]? = some p ∧ flags[i]? = some flag ∧ g.position? p.id = some i ∧
        p.id = id ∧ Verdict.ofFlag flag = v := by
  unfold verdicts
  simp only [List.mem_filterMap, Prod.exists, List.mem_zipIdx_iff_getElem?,
    List.getElem?_zip_eq_some]
  constructor
  · rintro ⟨p, flag, i, ⟨found, there⟩, kept⟩
    split at kept
    · rename_i first
      simp only [Option.some.injEq, Prod.mk.injEq] at kept
      exact ⟨i, p, flag, found, there, by simpa using first, kept⟩
    · simp at kept
  · rintro ⟨i, p, flag, found, there, first, rfl, rfl⟩
    exact ⟨p, flag, i, ⟨found, there⟩, by simp [first]⟩

/-- The verdict of an identity is that of the first procedure that has it. -/
theorem verdict?_classification {id : ProcId} {i : Nat} (first : g.position? id = some i) :
    ∃ flag, (suspendingNodes g.nodes)[i]? = some flag ∧
      g.classification.verdict? id = some (.ofFlag flag) := by
  obtain ⟨lt, same, -⟩ := List.findIdx?_eq_some_iff_getElem.1 first
  have same : (g.unit.procedures[i]).id = id := by simpa using same
  have found : g.unit.procedures[i]? = some g.unit.procedures[i] := List.getElem?_eq_getElem lt
  have long : i < (suspendingNodes g.nodes).length := by
    simpa [length_suspendingNodes, nodes] using lt
  refine ⟨_, List.getElem?_eq_getElem long, ?_⟩
  have listed : (id, Verdict.ofFlag (suspendingNodes g.nodes)[i]) ∈
      g.verdicts (suspendingNodes g.nodes) := by
    rw [mem_verdicts_iff]
    exact ⟨i, _, _, found, List.getElem?_eq_getElem long, same.symm ▸ first, same, rfl⟩
  have only : ∀ v, (id, v) ∈ g.verdicts (suspendingNodes g.nodes) →
      v = .ofFlag (suspendingNodes g.nodes)[i] := by
    intro v mem
    obtain ⟨j, p, flag, -, there, position, rfl, rfl⟩ := mem_verdicts_iff.1 mem
    obtain rfl : j = i := Option.some.inj (position.symm.trans first)
    rw [List.getElem?_eq_getElem long] at there
    rw [Option.some.inj there]
  have verdicts : g.classification.verdicts = g.verdicts (suspendingNodes g.nodes) := rfl
  unfold Classification.verdict?
  rw [verdicts]
  obtain ⟨entry, look⟩ := Option.isSome_iff_exists.1
    (List.find?_isSome (p := fun e => e.1 == id).2 ⟨_, listed, beq_self_eq_true id⟩)
  have key : entry.1 = id := by simpa using List.find?_some look
  rw [look, Option.map_some, only entry.2 (key ▸ List.mem_of_find?_eq_some look)]

end CallGraph

/-- A procedure is told to suspend exactly if it does so by declaration or by its form,
or if a chain of calls leads from it to something that suspends.  Every procedure gets a
verdict. -/
theorem verdict?_eq_suspending_iff (unit : CompilationUnit) (external : ExternalMetadata)
    (config : AnalysisConfig) (procedures : (unit.procedures.map Procedure.id).Nodup)
    (types : (unit.types.map TypeDecl.name).Nodup) {p : Procedure} (mem : p ∈ unit.procedures) :
    let graph : CallGraph := { external := external, config, unit }
    let classification := (unit.classify external config).1
    (classification.verdict? p.id).isSome ∧
      (classification.verdict? p.id = some .suspending ↔
        CallGraph.Declared p ∨
          ∃ q, Relation.ReflTransGen graph.Passes p q ∧ graph.Arrives q) := by
  intro graph classification
  have distinct : graph.Distinct := ⟨procedures, types⟩
  have bounded : graph.external.Bounded := external.resolver_bounded
  obtain ⟨i, found⟩ := List.getElem?_of_mem mem
  have first : graph.position? p.id = some i := distinct.position?_eq_some_iff.2 ⟨p, found, rfl⟩
  obtain ⟨flag, there, verdict⟩ := CallGraph.verdict?_classification first
  have verdict : classification.verdict? p.id = some (.ofFlag flag) := verdict
  rw [verdict, ← distinct.suspends_iff bounded found, ← suspendingNodes_iff, there]
  cases flag <;> simp [Verdict.ofFlag]

/-- A procedure of one block that makes calls without arguments. -/
def stepOf (owner : String) (calls : List FunctionRef) : Procedure :=
  { BlockBuilder.declaration ⟨owner, "step", "()"⟩ .void with
    blocks := [{ Block.empty ⟨0⟩ with
      statements := calls.map fun func => .call none func []
      terminator := .ret none }]
    attrs := .plain }

/-- Two types that derive from each other, with members that call each other.  One of
them yields. -/
def mirrors : CompilationUnit :=
  { name := "mirrors"
    types := [(TypeDecl.root "Left").extending "Right", (TypeDecl.root "Right").extending "Left"]
    procedures :=
      [stepOf "Left" [⟨⟨"Right", "step", "()"⟩, .virtual⟩],
       stepOf "Right" [⟨⟨"Left", "step", "()"⟩, .virtual⟩, Primitive.yield.call]] }

/-- The one that does not yield suspends as well. -/
theorem verdict?_mirrors :
    (mirrors.procedures.map Procedure.id).Nodup ∧ (mirrors.types.map TypeDecl.name).Nodup ∧
      stepOf "Left" [⟨⟨"Right", "step", "()"⟩, .virtual⟩] ∈ mirrors.procedures ∧
      ∃ q, Relation.ReflTransGen
        (CallGraph.Passes { external := ExternalMetadata.empty, config := .standard, unit := mirrors })
        (stepOf "Left" [⟨⟨"Right", "step", "()"⟩, .virtual⟩]) q ∧
        CallGraph.Arrives
          { external := ExternalMetadata.empty, config := .standard, unit := mirrors } q := by
  have procedures : (mirrors.procedures.map Procedure.id).Nodup := by decide
  have types : (mirrors.types.map TypeDecl.name).Nodup := by decide
  have mem : stepOf "Left" [⟨⟨"Right", "step", "()"⟩, .virtual⟩] ∈ mirrors.procedures := by decide
  refine ⟨procedures, types, mem, ?_⟩
  have verdicts := verdict?_eq_suspending_iff mirrors .empty .standard procedures types mem
  refine (verdicts.2.1 (by decide +kernel)).resolve_left ?_
  rintro ⟨-, marked⟩
  revert marked
  decide

end Resumable
