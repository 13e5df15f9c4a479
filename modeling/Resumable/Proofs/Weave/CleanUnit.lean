import Resumable.Proofs.Classify.Defects
import Resumable.Proofs.Weave.Correspondence
import Resumable.Weave.WovenUnit

/-!
# Units that are woven cleanly

A unit is woven cleanly if none of its procedures is in resumable form already, is an
initializer or has a sealed owner, and if weaving reports no failure.  Then no
procedure has a defect, the procedures have different identities, and each of them has a
counterpart in the woven unit (`WeavesCleanly.counterpart`).

What has to be shown is that the classification misses no call that can suspend when the
program runs.  The machine finds the target of a call by its identity alone, and that
comes first when the call is resolved.
-/

namespace Resumable

/-- Nothing stands in the way of weaving the unit. -/
structure CompilationUnit.WeavesCleanly (unit : CompilationUnit) (external : ExternalResolver)
    (config : AnalysisConfig) : Prop where
  unwoven : ∀ p ∈ unit.procedures, p.attrs.woven = false
  notInitializer : ∀ p ∈ unit.procedures, p.id.isInitializer = false
  unsealed : ∀ p ∈ unit.procedures, config.seals p.id.owner = false
  primitives : config.seals Primitive.owner = false
  failures : (unit.weave external config).failures = []

/-- The woven procedures of a unit as a program. -/
def CompilationUnit.wovenProgram (unit : CompilationUnit) (external : ExternalResolver)
    (config : AnalysisConfig) : Program :=
  { procedures := (unit.weave external config).procedures }

/-! ## Calls that are found at once -/

theorem Primitive.notInitializer_of_ofProc? {id : ProcId} {which : Primitive}
    (named : Primitive.ofProc? id = some which) :
    id.owner = Primitive.owner ∧ id.isInitializer = false := by
  unfold Primitive.ofProc? at named
  split at named
  · rename_i owner
    have name : which.name = id.name := by simpa using List.find?_some named
    refine ⟨by simpa using owner, ?_⟩
    unfold ProcId.isInitializer
    rw [← name]
    cases which <;> decide
  · cases named

namespace CallGraph

variable {g : CallGraph}

theorem member?_eq_of_own {target : ProcId} {t : Target}
    (look : g.lookMember target target.owner = { children := [], own := some t }) :
    g.member? target = some t := by
  have bound : g.searchBound =
      (g.unit.types.flatMap TypeDecl.parents).length + g.external.edges + 1 + 1 := rfl
  unfold member?
  rw [bound, firstFound, if_neg List.not_mem_nil, look, firstFound]
  rfl

theorem member?_primitive {target : ProcId} {which : Primitive}
    (unsealed : g.config.seals Primitive.owner = false)
    (named : Primitive.ofProc? target = some which) :
    g.member? target = some (.known (.ofFlag which.suspends)) := by
  obtain ⟨owner, notInit⟩ := Primitive.notInitializer_of_ofProc? named
  apply member?_eq_of_own
  unfold lookMember
  have unsealed' : g.config.seals target.owner = false := by rw [owner, unsealed]
  simp [notInit, unsealed', named]

theorem member?_local {target : ProcId} {i : Nat} (notInit : target.isInitializer = false)
    (unsealed : g.config.seals target.owner = false)
    (notPrimitive : Primitive.ofProc? target = none) (first : g.position? target = some i) :
    g.member? target = some (.node i) := by
  apply member?_eq_of_own
  unfold lookMember
  simp [notInit, unsealed, notPrimitive, first]

end CallGraph

/-! ## A unit without failures -/

namespace CompilationUnit.WeavesCleanly

variable {unit : CompilationUnit} {external : ExternalResolver} {config : AnalysisConfig}

/-- The call graph of the unit. -/
abbrev graph (unit : CompilationUnit) (external : ExternalResolver) (config : AnalysisConfig) :
    CallGraph :=
  { external, config, unit }

/-- Which procedures suspend, by position. -/
abbrev flags (unit : CompilationUnit) (external : ExternalResolver) (config : AnalysisConfig) :
    List Bool :=
  suspendingNodes (graph unit external config).nodes

theorem attempt_ok (h : unit.WeavesCleanly external config) {n : CallNode}
    (mem : n ∈ (graph unit external config).nodes) :
    ∃ r, (graph unit external config).classification.attempt
      (n.classified (flags unit external config)) = .ok r := by
  have none : (graph unit external config).classification.failureOf?
      (n.classified (flags unit external config)) = none :=
    List.filterMap_eq_nil_iff.1 h.failures _ (List.mem_map_of_mem mem)
  unfold Classification.failureOf? at none
  split at none
  · cases none
  · rename_i other
    cases attempt : (graph unit external config).classification.attempt
        (n.classified (flags unit external config)) with
    | error e => exact absurd attempt (other e)
    | ok r => exact ⟨r, rfl⟩

theorem errorFor?_eq_none (h : unit.WeavesCleanly external config) {n : CallNode}
    (mem : n ∈ (graph unit external config).nodes) :
    (graph unit external config).classification.errorFor? n.procedure.id = none := by
  obtain ⟨r, attempt⟩ := h.attempt_ok mem
  unfold Classification.attempt at attempt
  rw [CallNode.id_classified] at attempt
  split at attempt
  · cases attempt
  · assumption

variable {i : Nat} {p : Procedure}

theorem mem_nodes {g : CallGraph} (found : g.unit.procedures[i]? = some p) :
    g.nodes[i]? = some (g.node i p) ∧ g.node i p ∈ g.nodes := by
  have here := CallGraph.getElem?_nodes_of_found found
  exact ⟨here, List.mem_of_getElem? here⟩

/-- A procedure of the unit has no defect, and its calls count. -/
theorem trusted (h : unit.WeavesCleanly external config)
    (found : unit.procedures[i]? = some p) :
    (graph unit external config).defect? i p = none ∧
      ((graph unit external config).node i p).broken = false := by
  obtain ⟨-, mem⟩ := mem_nodes (g := graph unit external config) found
  exact CallGraph.trusted_of_errorFor? found (h.errorFor?_eq_none mem)

theorem position?_eq (h : unit.WeavesCleanly external config)
    (found : unit.procedures[i]? = some p) :
    (graph unit external config).position? p.id = some i :=
  (CallGraph.defect?_eq_none_iff.1 (h.trusted found).1).1

theorem validate_eq_ok (h : unit.WeavesCleanly external config)
    (found : unit.procedures[i]? = some p) : p.validate = .ok () :=
  (CallGraph.defect?_eq_none_iff.1 (h.trusted found).1).2.1

theorem sound (h : unit.WeavesCleanly external config) (found : unit.procedures[i]? = some p)
    (body : p.hasBody = true) : p.Sound :=
  Procedure.sound_of_validate (h.validate_eq_ok found) body

/-- The identities are different. -/
theorem nodup (h : unit.WeavesCleanly external config) :
    (unit.procedures.map Procedure.id).Nodup := by
  rw [List.nodup_iff_injective_get]
  intro a b same
  rw [List.get_eq_getElem, List.get_eq_getElem, List.getElem_map, List.getElem_map] at same
  have first := h.position?_eq (List.getElem?_eq_getElem (by simpa using a.2))
  rw [same, h.position?_eq (List.getElem?_eq_getElem (by simpa using b.2))] at first
  exact Fin.ext (Option.some.inj first).symm

theorem follows_eq (h : unit.WeavesCleanly external config)
    (found : unit.procedures[i]? = some p) : CallGraph.follows p = p.hasBody := by
  have mem := List.mem_of_getElem? found
  simp [CallGraph.follows, h.unwoven p mem, h.notInitializer p mem]

theorem node_sites_eq (h : unit.WeavesCleanly external config)
    (found : unit.procedures[i]? = some p) :
    ((graph unit external config).node i p).sites =
      if p.hasBody then (graph unit external config).sites p else [] := by
  unfold CallGraph.node
  simp only [(h.trusted found).1, Option.isNone_none, Bool.true_and, h.follows_eq found]

/-- What becomes of a procedure in the classification: its calls are marked. -/
theorem classified_eq (h : unit.WeavesCleanly external config)
    (found : unit.procedures[i]? = some p) :
    ((graph unit external config).node i p).classified (flags unit external config) =
      annotate p ((graph unit external config).node i p).sites (flags unit external config) := by
  have unwoven : ((graph unit external config).node i p).procedure.attrs.woven = false :=
    h.unwoven p (List.mem_of_getElem? found)
  unfold CallNode.classified
  rw [(h.trusted found).2, unwoven]
  rfl

/-! ## The woven procedures -/

/-- The procedure with its calls marked. -/
abbrev marked (unit : CompilationUnit) (external : ExternalResolver) (config : AnalysisConfig)
    (i : Nat) (p : Procedure) : Procedure :=
  annotate p ((graph unit external config).node i p).sites (flags unit external config)

/-- What becomes of a procedure of the unit. -/
def result (unit : CompilationUnit) (external : ExternalResolver) (config : AnalysisConfig)
    (i : Nat) (p : Procedure) : Procedure :=
  (graph unit external config).classification.procedureAfter (marked unit external config i p)

theorem getElem?_procedures (h : unit.WeavesCleanly external config) (i : Nat) :
    (unit.wovenProgram external config).procedures[i]? =
      (unit.procedures[i]?).map (result unit external config i) := by
  have form : (unit.wovenProgram external config).procedures =
      ((graph unit external config).nodes.map fun n =>
        n.classified (flags unit external config)).map
          (graph unit external config).classification.procedureAfter := rfl
  rw [form, List.getElem?_map, List.getElem?_map]
  cases found : unit.procedures[i]? with
  | none => simp [CallGraph.nodes, List.getElem?_zipIdx, found]
  | some p =>
    obtain ⟨here, -⟩ := mem_nodes (g := graph unit external config) found
    rw [here, Option.map_some, Option.map_some, h.classified_eq found]
    rfl

theorem isSuspending_iff (h : unit.WeavesCleanly external config)
    (found : unit.procedures[i]? = some p) :
    (graph unit external config).classification.isSuspending p.id = true ↔
      (flags unit external config)[i]? = some true := by
  obtain ⟨flag, there, verdict⟩ := CallGraph.verdict?_classification (h.position?_eq found)
  unfold Classification.isSuspending
  rw [verdict, there]
  cases flag <;> simp [Verdict.ofFlag, Verdict.isSuspending]

/-- A procedure of the unit is woven, if it suspends and has a body, or just marked. -/
theorem result_cases (h : unit.WeavesCleanly external config)
    (found : unit.procedures[i]? = some p) :
    (flags unit external config)[i]? = some true ∧ p.hasBody = true ∧
        (marked unit external config i p).resumableForm = .ok (result unit external config i p) ∨
      ((flags unit external config)[i]? ≠ some true ∨ p.hasBody = false) ∧
        result unit external config i p = marked unit external config i p := by
  obtain ⟨-, mem⟩ := mem_nodes (g := graph unit external config) found
  obtain ⟨r, attempt⟩ := h.attempt_ok mem
  have noError := h.errorFor?_eq_none mem
  rw [h.classified_eq found] at attempt
  have body : (marked unit external config i p).hasBody = p.hasBody :=
    Procedure.hasBody_annotate _ _
  have unwoven : (marked unit external config i p).attrs.woven = false :=
    h.unwoven p (List.mem_of_getElem? found)
  have noError : (graph unit external config).classification.errorFor?
      (marked unit external config i p).id = none := noError
  have suspending := h.isSuspending_iff found
  have suspending : (graph unit external config).classification.isSuspending
      (marked unit external config i p).id = true ↔ _ := suspending
  unfold result Classification.procedureAfter
  rw [attempt]
  unfold Classification.attempt Procedure.weave at attempt
  simp only [noError, unwoven, body, Bool.false_or] at attempt
  by_cases flag : (flags unit external config)[i]? = some true
  · simp only [suspending.2 flag, if_true] at attempt
    cases has : p.hasBody with
    | false =>
      simp only [has, Bool.not_false, if_true, Except.ok.injEq] at attempt
      subst attempt
      exact Or.inr ⟨Or.inr rfl, rfl⟩
    | true =>
      simp only [has, Bool.not_true, Bool.false_eq_true, if_false] at attempt
      split at attempt
      · rename_i woven form
        cases attempt
        exact Or.inl ⟨flag, rfl, form⟩
      · cases attempt
  · have quiet := mt suspending.1 flag
    rw [Bool.not_eq_true] at quiet
    simp only [quiet, Bool.false_eq_true, if_false, Except.ok.injEq] at attempt
    subst attempt
    exact Or.inr ⟨Or.inl flag, rfl⟩

/-- A procedure of the unit in resumable form suspends. -/
theorem flag_of_woven (h : unit.WeavesCleanly external config)
    (found : unit.procedures[i]? = some p)
    (woven : (result unit external config i p).attrs.woven = true) :
    (flags unit external config)[i]? = some true := by
  rcases h.result_cases found with ⟨flag, -⟩ | ⟨-, same⟩
  · exact flag
  · have unwoven : (marked unit external config i p).attrs.woven = false :=
      h.unwoven p (List.mem_of_getElem? found)
    rw [same, unwoven] at woven
    cases woven

/-- A procedure that was woven. -/
theorem assembled (h : unit.WeavesCleanly external config)
    (found : unit.procedures[i]? = some p) (body : p.hasBody = true)
    (form : (marked unit external config i p).resumableForm =
      .ok (result unit external config i p)) :
    ∃ live cut, Assembled (marked unit external config i p) live cut
      (result unit external config i p) :=
  Procedure.exists_assembled ((h.sound found body).annotate _ _)
    (h.unwoven p (List.mem_of_getElem? found)) form

theorem id_result (h : unit.WeavesCleanly external config)
    (found : unit.procedures[i]? = some p) :
    (result unit external config i p).id = p.id ∧
      (result unit external config i p).hasBody = p.hasBody := by
  rcases h.result_cases found with ⟨-, body, form⟩ | ⟨-, same⟩
  · obtain ⟨live, cut, assembled⟩ := h.assembled found body form
    rw [assembled.hasBody (body ▸ Procedure.hasBody_annotate _ _), body, assembled.form]
    exact ⟨rfl, rfl⟩
  · rw [same]
    exact ⟨rfl, Procedure.hasBody_annotate _ _⟩

theorem map_id (h : unit.WeavesCleanly external config) :
    (unit.wovenProgram external config).procedures.map Procedure.id =
      unit.procedures.map Procedure.id := by
  refine List.ext_getElem? fun i => ?_
  rw [List.getElem?_map, List.getElem?_map, h.getElem?_procedures]
  cases found : unit.procedures[i]? with
  | none => rfl
  | some p => exact congrArg some (h.id_result found).1

/-- The woven procedure is found under the identity of the original one. -/
theorem procedure?_eq (h : unit.WeavesCleanly external config)
    (found : unit.procedures[i]? = some p) :
    (unit.wovenProgram external config).procedure? p.id =
      some (result unit external config i p) := by
  have here := h.getElem?_procedures i
  rw [found, Option.map_some] at here
  have mem : result unit external config i p ∈
      (unit.wovenProgram external config).procedures.reverse :=
    List.mem_reverse.2 (List.mem_of_getElem? here)
  have nodup : ((unit.wovenProgram external config).procedures.reverse.map
      Procedure.id).Nodup := by
    rw [List.map_reverse, List.nodup_reverse, h.map_id]
    exact h.nodup
  unfold Program.procedure?
  rw [← (h.id_result found).1]
  exact find?_of_nodup nodup mem

/-- Only the procedures of the unit are found in the woven program. -/
theorem exists_of_procedure? (h : unit.WeavesCleanly external config) {id : ProcId}
    {w : Procedure} (look : (unit.wovenProgram external config).procedure? id = some w) :
    ∃ i p, unit.procedures[i]? = some p ∧ w = result unit external config i p ∧ p.id = id := by
  have same : w.id = id := by simpa using List.find?_some look
  obtain ⟨i, here⟩ := List.getElem?_of_mem (List.mem_reverse.1 (List.mem_of_find?_eq_some look))
  rw [h.getElem?_procedures, Option.map_eq_some_iff] at here
  obtain ⟨p, found, rfl⟩ := here
  exact ⟨i, p, found, rfl, (h.id_result found).1 ▸ same⟩

/-! ## Calls that may suspend are marked -/

/-- A call that may suspend when the program runs suspends for the classification. -/
theorem site_suspends (h : unit.WeavesCleanly external config) {func : FunctionRef}
    (may : (unit.wovenProgram external config).MaySuspend func.target) (block stmt : Nat) :
    ((graph unit external config).site block stmt func).suspends
      (flags unit external config) = true := by
  rw [Site.suspends_iff]
  cases may with
  | primitive named suspends =>
    left
    rw [CallGraph.site_fixed, CallGraph.member?_primitive h.primitives named, suspends]
    rfl
  | woven notPrimitive look woven =>
    right
    obtain ⟨i, p, found, rfl, same⟩ := h.exists_of_procedure? look
    have mem := List.mem_of_getElem? found
    refine ⟨i, (CallGraph.mem_site_nodes _ _ _ _).2 (Or.inl ?_), h.flag_of_woven found woven⟩
    apply CallGraph.member?_local _ _ notPrimitive
    · rw [← same]
      exact h.position?_eq found
    · rw [← same]
      exact h.notInitializer p mem
    · rw [← same]
      exact h.unsealed p mem

/-- A call that may suspend makes its caller suspend. -/
theorem flag_of_call (h : unit.WeavesCleanly external config)
    (found : unit.procedures[i]? = some p) (body : p.hasBody = true) {func : FunctionRef}
    (call : func ∈ CallGraph.bodyCalls p)
    (may : (unit.wovenProgram external config).MaySuspend func.target) :
    (flags unit external config)[i]? = some true := by
  obtain ⟨here, -⟩ := mem_nodes (g := graph unit external config) found
  obtain ⟨b, k, site⟩ :=
    CallGraph.exists_site_of_mem_bodyCalls (g := graph unit external config) call
  refine suspendingNodes_of_site here ?_ ?_ (h.site_suspends may b k)
  · have notInit : ((graph unit external config).node i p).procedure.id.isInitializer = false :=
      h.notInitializer p (List.mem_of_getElem? found)
    simp [CallNode.isOpen, notInit, (h.trusted found).2]
  · rw [h.node_sites_eq found, body]
    exact site

theorem marked_spec (h : unit.WeavesCleanly external config)
    (found : unit.procedures[i]? = some p) (body : p.hasBody = true) :
    (unit.wovenProgram external config).Marked (marked unit external config i p) := by
  intro b mem k s here other func call may
  obtain ⟨n, there⟩ := List.getElem?_of_mem mem
  simp only [marked, annotate, List.getElem?_map, List.getElem?_zipIdx, Option.map_map,
    Option.map_eq_some_iff, Function.comp_apply, Nat.zero_add] at there
  obtain ⟨block, at_, rfl⟩ := there
  apply other
  refine List.mem_map.2 ⟨(graph unit external config).site n k func, ?_, rfl⟩
  rw [List.mem_filter, h.node_sites_eq found, body, if_pos rfl, Bool.and_eq_true]
  refine ⟨CallGraph.mem_sites_iff.2 ⟨n, block, k, s, func, at_, here, call, rfl⟩,
    beq_self_eq_true n, h.site_suspends may n k⟩

/-- Every procedure with a body has a counterpart in the woven program. -/
theorem counterpart (h : unit.WeavesCleanly external config)
    (found : unit.procedures[i]? = some p) (body : p.hasBody = true) :
    ∃ live, (unit.wovenProgram external config).Counterpart live p
      (result unit external config i p) := by
  have sound := h.sound found body
  have unwoven := h.unwoven p (List.mem_of_getElem? found)
  have markedSound : (marked unit external config i p).Sound := sound.annotate _ _
  obtain ⟨live, computed, solves⟩ := Liveness.compute?_eq_some markedSound
  suffices work : (unit.wovenProgram external config).Counterpart live
      (marked unit external config i p) (result unit external config i p) from
    ⟨live, work.ofAnnotated sound⟩
  rcases h.result_cases found with ⟨-, -, form⟩ | ⟨quiet, same⟩
  · obtain ⟨live', cut, assembled⟩ := h.assembled found body form
    obtain rfl : live' = live := Option.some.inj (assembled.computed.symm.trans computed)
    exact assembled.counterpart solves (h.marked_spec found body)
  · rw [same]
    refine .ofUnwoven markedSound unwoven solves ?_
    intro b mem s statement func call may
    obtain ⟨⟨block, n⟩, place, rfl⟩ := List.mem_map.1 mem
    have block := List.mem_of_getElem? (List.mem_zipIdx_iff_getElem?.1 place)
    have listed : func ∈ CallGraph.bodyCalls p :=
      List.mem_flatMap.2 ⟨_, block, List.mem_filterMap.2 ⟨s, statement, call⟩⟩
    exact quiet.resolve_right (by simp [body]) (h.flag_of_call found body listed may)

end CompilationUnit.WeavesCleanly

/-! ## A unit that is woven cleanly -/

namespace Relay

/-- A procedure of one block. -/
def straight (name : String) (params rest : List Local) (statements : List Stmt)
    (result : Operand) : Procedure :=
  { id := ⟨"Relay", name, "()"⟩, params, retTy := .int, locals := params ++ rest
    blocks := [{ Block.empty ⟨0⟩ with statements, terminator := .ret (some result) }]
    entryBlock := ⟨0⟩, attrs := .plain, states := [] }

/-- Yields, and gives the successor of its argument. -/
def inner : Procedure :=
  straight "inner" [⟨⟨0⟩, some "n", .int, true⟩] [⟨⟨1⟩, some "next", .int, false⟩]
    [.call none Primitive.yield.call [],
      .assign ⟨1⟩ (.binary .add (.local ⟨0⟩) (.const (.int 1)))] (.local ⟨1⟩)

/-- Prints what the inner procedure makes of a number. -/
def outer : Procedure :=
  straight "outer" [] [⟨⟨0⟩, some "n", .int, false⟩]
    [.call (some ⟨0⟩) ⟨inner.id, .static⟩ [.const (.int 41)],
      .call none Primitive.print.call [.local ⟨0⟩]] (.local ⟨0⟩)

/-- A procedure that nothing provides. -/
def missing : ProcId := ⟨"Relay", "missing", "()"⟩

/-- Yields and then calls the procedure that nothing provides. -/
def lost : Procedure :=
  straight "lost" [] []
    [.call none Primitive.yield.call [], .call none ⟨missing, .static⟩ []] (.const .unit)

def unit : CompilationUnit :=
  { name := "relay", types := [], procedures := [inner, outer, lost] }

theorem clean : unit.WeavesCleanly ExternalMetadata.empty .standard where
  unwoven := by decide
  notInitializer := by decide
  unsealed := by decide
  primitives := by decide
  failures := by decide +kernel

/-- The unit, woven. -/
def program : Program := unit.wovenProgram ExternalMetadata.empty .standard

end Relay

end Resumable
