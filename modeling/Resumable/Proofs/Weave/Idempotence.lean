import Resumable.Proofs.Classify.Defects
import Resumable.Proofs.Classify.Replacement
import Resumable.Proofs.Weave.Soundness
import Resumable.Weave.WovenUnit

/-!
# Weaving twice

A unit whose procedures came out of a weaving is woven as it is: the procedures stay, there is
no holder, and the failures are the same (`CompilationUnit.weave_weave`).  This holds for every
unit, whatever is wrong with its procedures.

A procedure that was not woven is the same for the call graph, with its calls marked.  One
that was woven has no calls to follow any more, but it suspends by its form, as it did by its
calls before.  So both call graphs have the same errors, and the same procedures suspend.
-/

namespace Resumable

/-! ## Marks -/

/-- What is numbered after it was numbered has the numbers that it had. -/
theorem zipIdx_map_zipIdx {α β : Type} (f : α × Nat → β) (l : List α) :
    (l.zipIdx.map f).zipIdx = l.zipIdx.map fun x => (f x, x.2) := by
  refine List.ext_getElem? fun i => ?_
  simp only [List.getElem?_zipIdx, List.getElem?_map, Option.map_map, Nat.zero_add]
  rfl

section Marks

variable (p : Procedure) (sites : List Site) (flags : List Bool)

theorem annotate_annotate :
    annotate (annotate p sites flags) sites flags = annotate p sites flags := by
  unfold annotate
  rw [zipIdx_map_zipIdx, List.map_map]
  rfl

theorem calls_annotate : (annotate p sites flags).calls = p.calls := by
  unfold Procedure.calls annotate
  rw [List.flatMap_map]
  conv_rhs => rw [← List.zipIdx_map_fst 0 p.blocks, List.flatMap_map]
  rfl

theorem CallGraph.sites_annotate (g : CallGraph) :
    g.sites (annotate p sites flags) = g.sites p := by
  unfold CallGraph.sites annotate
  rw [zipIdx_map_zipIdx, List.flatMap_map]

theorem CallGraph.follows_annotate : follows (annotate p sites flags) = follows p := by
  unfold follows
  rw [p.hasBody_annotate]
  rfl

end Marks

/-- Marking a procedure again changes nothing. -/
theorem CallNode.classified_classified (n : CallNode) (flags : List Bool) :
    ({ n with procedure := n.classified flags } : CallNode).classified flags =
      n.classified flags := by
  unfold classified
  cases skip : n.broken || n.procedure.attrs.woven with
  | true => simp [skip]
  | false =>
    have skip : (n.broken || (annotate n.procedure n.sites flags).attrs.woven) = false := skip
    simp [skip, annotate_annotate]

theorem CallNode.calls_classified (n : CallNode) (flags : List Bool) :
    (n.classified flags).calls = n.procedure.calls := by
  unfold classified
  split
  · rfl
  · exact calls_annotate _ _ _

/-- A procedure that is woven suspends, and no error is recorded for it. -/
theorem Classification.attempt_eq_some {c : Classification} {p : Procedure}
    {woven : WovenProcedure} (attempt : c.attempt p = .ok (some woven)) :
    c.errorFor? p.id = none ∧ c.isSuspending p.id = true ∧ p.attrs.woven = false ∧
      p.hasBody = true ∧ p.resumableForm = .ok woven.procedure := by
  unfold Classification.attempt Procedure.weave at attempt
  cases noError : c.errorFor? p.id with
  | some e =>
    rw [noError] at attempt
    cases attempt
  | none =>
    simp only [noError] at attempt
    cases verdict : c.isSuspending p.id with
    | false => simp [verdict] at attempt
    | true =>
      simp only [verdict, if_true] at attempt
      split at attempt
      · cases attempt
      · rename_i plain
        rw [Bool.not_eq_true, Bool.or_eq_false_iff] at plain
        split at attempt
        · rename_i w form
          cases attempt
          exact ⟨rfl, rfl, plain.1, by simpa using plain.2, form⟩
        · cases attempt

namespace CallGraph

variable {g : CallGraph} {i : Nat} {p w : Procedure}

/-- A procedure whose calls are marked is what it was for the call graph. -/
theorem node_classified (g : CallGraph) (i : Nat) (p : Procedure) (flags : List Bool) :
    g.node i ((g.node i p).classified flags) =
      { g.node i p with procedure := (g.node i p).classified flags } := by
  unfold CallNode.classified
  cases skip : (g.node i p).broken || (g.node i p).procedure.attrs.woven with
  | true => rfl
  | false =>
    have unbroken := (Bool.or_eq_false_iff.1 skip).1
    rw [node_broken, Bool.or_eq_false_iff, Option.isSome_eq_false_iff, Option.isNone_iff_eq_none]
      at unbroken
    obtain ⟨first, valid, forwards⟩ := defect?_eq_none_iff.1 unbroken.1
    have sound : g.defect? i (annotate p (g.node i p).sites flags) = none := by
      refine defect?_eq_none_iff.2 ⟨first, ?_, fun bridge => ?_⟩
      · rw [Procedure.validate_eq_ok_iff] at valid ⊢
        exact valid.imp id fun sound => sound.annotate _ _
      · rw [calls_annotate]
        exact forwards bridge
    change g.node i (annotate p (g.node i p).sites flags) =
      { g.node i p with procedure := annotate p (g.node i p).sites flags }
    generalize (g.node i p).sites = sites at sound ⊢
    unfold node
    rw [sound, unbroken.1, sites_annotate, follows_annotate]

/-! ## The first weaving -/

/-- Which procedures suspend, by position. -/
abbrev flags (g : CallGraph) : List Bool := suspendingNodes g.nodes

/-- A procedure with its calls marked. -/
def marked (g : CallGraph) (i : Nat) (p : Procedure) : Procedure :=
  (g.node i p).classified g.flags

/-- What a weaving makes of a procedure. -/
def outcome (g : CallGraph) (i : Nat) (p : Procedure) : Procedure :=
  g.classification.procedureAfter (g.marked i p)

/-- The procedures that come out of a weaving. -/
def outcomes (g : CallGraph) : List Procedure :=
  g.unit.procedures.zipIdx.map fun x => g.outcome x.2 x.1

/-- The call graph of what comes out of a weaving. -/
def again (g : CallGraph) : CallGraph := g.replacing g.outcomes

/-- A procedure that is woven: nothing is wrong with it, and it suspends. -/
structure Weaves (g : CallGraph) (i : Nat) (p w : Procedure) : Prop where
  noError : g.classification.errorFor? p.id = none
  sound : g.defect? i p = none
  unbroken : (g.node i p).broken = false
  verdict : g.classification.isSuspending p.id = true
  suspends : Suspends g.nodes i
  assembled : ∃ live cut, Assembled (g.marked i p) live cut w

theorem id_marked : (g.marked i p).id = p.id := CallNode.id_classified _ _

theorem attrs_marked : (g.marked i p).attrs = p.attrs := CallNode.attrs_classified _ _

/-- Where nothing is wrong with a procedure, its marks are those of the classification. -/
theorem marked_eq_annotate (unbroken : (g.node i p).broken = false)
    (unwoven : p.attrs.woven = false) :
    g.marked i p = annotate p (g.node i p).sites g.flags := by
  have skip : ((g.node i p).broken || (g.node i p).procedure.attrs.woven) = false := by
    rw [unbroken]
    exact unwoven
  unfold marked CallNode.classified
  rw [skip]
  rfl

theorem weaves_of_attempt (found : g.unit.procedures[i]? = some p) {woven : WovenProcedure}
    (attempt : g.classification.attempt (g.marked i p) = .ok (some woven)) :
    g.Weaves i p woven.procedure := by
  obtain ⟨noError, verdict, unwoven, body, form⟩ := Classification.attempt_eq_some attempt
  rw [id_marked] at noError verdict
  obtain ⟨sound, unbroken⟩ := trusted_of_errorFor? found noError
  obtain ⟨first, valid, -⟩ := defect?_eq_none_iff.1 sound
  refine ⟨noError, sound, unbroken, verdict, ?_, ?_⟩
  · obtain ⟨flag, there, same⟩ := verdict?_classification first
    rw [← suspendingNodes_iff, there]
    unfold Classification.isSuspending at verdict
    rw [same] at verdict
    cases flag with
    | true => rfl
    | false => cases verdict
  · refine Procedure.exists_assembled ?_ unwoven form
    rw [attrs_marked] at unwoven
    rw [marked_eq_annotate unbroken unwoven] at body ⊢
    rw [Procedure.hasBody_annotate] at body
    exact (Procedure.sound_of_validate valid body).annotate _ _

/-- A procedure is woven, or it is left alone with its calls marked. -/
theorem outcome_cases (found : g.unit.procedures[i]? = some p) :
    (∃ holder, g.classification.attempt (g.marked i p) = .ok (some ⟨g.outcome i p, holder⟩) ∧
      g.Weaves i p (g.outcome i p)) ∨
    g.outcome i p = g.marked i p ∧
      ∀ woven, g.classification.attempt (g.marked i p) ≠ .ok (some woven) := by
  by_cases woven : ∃ woven, g.classification.attempt (g.marked i p) = .ok (some woven)
  · obtain ⟨⟨w, holder⟩, attempt⟩ := woven
    have same : g.outcome i p = w := by
      unfold outcome Classification.procedureAfter
      rw [attempt]
    rw [same]
    exact Or.inl ⟨holder, attempt, weaves_of_attempt found attempt⟩
  · refine Or.inr ⟨?_, fun w attempt => woven ⟨w, attempt⟩⟩
    unfold outcome Classification.procedureAfter
    split
    · rename_i w attempt
      exact absurd ⟨w, attempt⟩ woven
    · rfl

theorem id_outcome (found : g.unit.procedures[i]? = some p) : (g.outcome i p).id = p.id := by
  obtain ⟨-, -, weaves⟩ | ⟨same, -⟩ := outcome_cases found
  · obtain ⟨live, cut, assembled⟩ := weaves.assembled
    exact assembled.id_eq.trans id_marked
  · rw [same]
    exact id_marked

/-- The procedures keep their identities. -/
theorem map_id_outcomes : g.outcomes.map Procedure.id = g.unit.procedures.map Procedure.id := by
  unfold outcomes
  rw [List.map_map]
  conv_rhs => rw [← List.zipIdx_map_fst 0 g.unit.procedures, List.map_map]
  refine List.map_congr_left fun x mem => ?_
  exact id_outcome (List.mem_zipIdx_iff_getElem?.1 mem)

/-! ## The second classification -/

/-- A procedure that was woven has no calls to follow and no defect. -/
theorem Weaves.node_eq (h : g.Weaves i p w) : g.node i w = ⟨w, none, [], false⟩ := by
  obtain ⟨live, cut, assembled⟩ := h.assembled
  obtain ⟨first, -, forwards⟩ := defect?_eq_none_iff.1 h.sound
  have sound : g.defect? i w = none := by
    refine defect?_eq_none_iff.2 ⟨?_, ?_, fun bridge => ?_⟩
    · rw [assembled.id_eq, id_marked]
      exact first
    · exact Procedure.validate_eq_ok_iff.2 (Or.inr assembled.isSound)
    · rw [assembled.bridge_eq, attrs_marked] at bridge
      rw [assembled.calls_perm.length_eq, marked, CallNode.calls_classified]
      exact forwards bridge
  have quiet : follows w = false := by
    unfold follows
    rw [assembled.woven]
    rfl
  unfold node
  rw [sound, quiet]
  simp

/-- What a weaving makes of a procedure is for the call graph what the procedure was, or it has
no calls any more and suspends nevertheless. -/
theorem node_outcome_cases (found : g.unit.procedures[i]? = some p) :
    g.Weaves i p (g.outcome i p) ∧ g.node i (g.outcome i p) = ⟨g.outcome i p, none, [], false⟩ ∨
      g.outcome i p = g.marked i p ∧
        g.node i (g.outcome i p) = { g.node i p with procedure := g.outcome i p } := by
  obtain ⟨-, -, weaves⟩ | ⟨same, -⟩ := outcome_cases found
  · exact Or.inl ⟨weaves, weaves.node_eq⟩
  · refine Or.inr ⟨same, ?_⟩
    rw [same]
    exact node_classified g i p g.flags

theorem nodes_again :
    g.again.nodes = g.unit.procedures.zipIdx.map fun x => g.node x.2 (g.outcome x.2 x.1) := by
  have nodes : g.again.nodes = g.outcomes.zipIdx.map fun x => g.again.node x.2 x.1 := rfl
  have same : g.again.node = g.node := node_replacing map_id_outcomes
  rw [nodes, same, outcomes, zipIdx_map_zipIdx, List.map_map]
  rfl

theorem getElem?_nodes_again (i : Nat) :
    g.again.nodes[i]? = (g.unit.procedures[i]?).map fun p => g.node i (g.outcome i p) := by
  simp [nodes_again, List.getElem?_zipIdx, Option.map_map, Function.comp_def]

/-- Where the nodes have the same data, the call graphs have it. -/
theorem map_nodes_again {α : Type} {data : CallNode → α}
    (same : ∀ (i : Nat) (p : Procedure), g.unit.procedures[i]? = some p →
      data (g.node i (g.outcome i p)) = data (g.node i p)) :
    g.again.nodes.map data = g.nodes.map data := by
  rw [nodes_again, nodes, List.map_map, List.map_map]
  exact List.map_congr_left fun x mem => same x.2 x.1 (List.mem_zipIdx_iff_getElem?.1 mem)

/-- A procedure that was woven suspends by its form. -/
theorem Weaves.isSeed (h : g.Weaves i p w) (found : g.unit.procedures[i]? = some p) :
    (⟨w, none, [], false⟩ : CallNode).isSeed = true := by
  obtain ⟨live, cut, assembled⟩ := h.assembled
  have id : w.id = p.id := assembled.id_eq.trans id_marked
  have plain : p.id.isInitializer = false := by
    have node := getElem?_nodes_of_found found
    cases h.suspends with
    | @own _ n here seed =>
      obtain rfl : g.node i p = n := Option.some.inj (node.symm.trans here)
      exact Bool.not_eq_true' _ ▸ (Bool.and_eq_true_iff.1 seed).1
    | @call _ _ n _ here isOpen =>
      obtain rfl : g.node i p = n := Option.some.inj (node.symm.trans here)
      exact Bool.not_eq_true' _ ▸ (Bool.and_eq_true_iff.1 isOpen).1
  unfold CallNode.isSeed
  simp only [id, plain, assembled.woven]
  simp

theorem isSeed_marked :
    ({ g.node i p with procedure := g.marked i p } : CallNode).isSeed = (g.node i p).isSeed := by
  unfold CallNode.isSeed
  rw [id_marked, attrs_marked]
  rfl

theorem isOpen_marked :
    ({ g.node i p with procedure := g.marked i p } : CallNode).isOpen = (g.node i p).isOpen := by
  unfold CallNode.isOpen
  rw [id_marked]
  rfl

theorem suspends_of_again (suspends : Suspends g.again.nodes i) : Suspends g.nodes i := by
  have look : ∀ {i : Nat} {n : CallNode}, g.again.nodes[i]? = some n →
      ∃ p, g.unit.procedures[i]? = some p ∧ g.node i (g.outcome i p) = n := by
    intro i n here
    rwa [getElem?_nodes_again, Option.map_eq_some_iff] at here
  induction suspends with
  | own here seed =>
    obtain ⟨p, found, rfl⟩ := look here
    obtain ⟨weaves, -⟩ | ⟨same, kept⟩ := node_outcome_cases found
    · exact weaves.suspends
    · rw [kept, same, isSeed_marked] at seed
      exact .own (getElem?_nodes_of_found found) seed
  | call here isOpen site target _ ih =>
    obtain ⟨p, found, rfl⟩ := look here
    obtain ⟨weaves, -⟩ | ⟨same, kept⟩ := node_outcome_cases found
    · exact weaves.suspends
    · rw [kept, same, isOpen_marked] at isOpen
      rw [kept] at site
      exact .call (getElem?_nodes_of_found found) isOpen site target ih

theorem suspends_again (suspends : Suspends g.nodes i) : Suspends g.again.nodes i := by
  have back : ∀ {i : Nat} {p : Procedure}, g.unit.procedures[i]? = some p →
      g.again.nodes[i]? = some (g.node i (g.outcome i p)) := by
    intro i p found
    rw [getElem?_nodes_again, found]
    rfl
  induction suspends with
  | own here seed =>
    obtain ⟨p, found, rfl⟩ := found_of_getElem?_nodes here
    refine .own (back found) ?_
    obtain ⟨weaves, bare⟩ | ⟨same, kept⟩ := node_outcome_cases found
    · rw [bare]
      exact weaves.isSeed found
    · rw [kept, same, isSeed_marked]
      exact seed
  | call here isOpen site target _ ih =>
    obtain ⟨p, found, rfl⟩ := found_of_getElem?_nodes here
    obtain ⟨weaves, bare⟩ | ⟨same, kept⟩ := node_outcome_cases found
    · refine .own (back found) ?_
      rw [bare]
      exact weaves.isSeed found
    · refine .call (back found) ?_ (kept ▸ site) target ih
      rw [kept, same, isOpen_marked]
      exact isOpen

/-- The same procedures suspend. -/
theorem flags_again : g.again.flags = g.flags := by
  have lengths : g.again.nodes.length = g.nodes.length := by
    rw [nodes_again, nodes, List.length_map, List.length_map]
  refine List.ext_getElem? fun i => ?_
  have same : g.again.flags[i]? = some true ↔ g.flags[i]? = some true := by
    rw [suspendingNodes_iff, suspendingNodes_iff]
    exact ⟨suspends_of_again, suspends_again⟩
  have short : g.again.flags[i]? = none ↔ g.flags[i]? = none := by
    rw [List.getElem?_eq_none_iff, List.getElem?_eq_none_iff, length_suspendingNodes,
      length_suspendingNodes, lengths]
  generalize g.again.flags[i]? = a at same short
  generalize g.flags[i]? = b at same short
  rcases a with _ | _ | _ <;> rcases b with _ | _ | _ <;> simp_all

/-- The same errors are recorded. -/
theorem errors_again : g.again.classification.errors = g.classification.errors := by
  have form : ∀ g : CallGraph, g.classification.errors =
      (g.nodes.map CallNode.defect).filterMap id ++
        if g.config.strictResolution then
          ((g.nodes.map CallNode.unresolved).flatten).map fun u => .unresolvedCall u.caller u.callee
        else [] := by
    intro g
    rw [List.filterMap_map]
    rfl
  have defects : g.again.nodes.map CallNode.defect = g.nodes.map CallNode.defect := by
    refine map_nodes_again fun i p found => ?_
    obtain ⟨weaves, bare⟩ | ⟨-, kept⟩ := node_outcome_cases found
    · rw [bare]
      exact weaves.sound.symm
    · rw [kept]
  have config : g.again.config = g.config := rfl
  rw [form, form g, defects, config]
  cases strict : g.config.strictResolution with
  | false => rfl
  | true =>
    have unresolved : g.again.nodes.map CallNode.unresolved = g.nodes.map CallNode.unresolved := by
      refine map_nodes_again fun i p found => ?_
      obtain ⟨weaves, bare⟩ | ⟨same, kept⟩ := node_outcome_cases found
      · have resolved : ∀ s ∈ (g.node i p).sites, s.isUnresolved = false := by
          simpa [node_broken, weaves.sound, strict] using weaves.unbroken
        have none : (g.node i p).sites.filter Site.isUnresolved = [] :=
          List.filter_eq_nil_iff.2 fun s mem => Bool.eq_false_iff.1 (resolved s mem)
        rw [bare]
        unfold CallNode.unresolved
        rw [none]
        rfl
      · rw [kept, same]
        unfold CallNode.unresolved
        rw [id_marked]
        rfl
    rw [unresolved]

theorem verdicts_again : g.again.classification.verdicts = g.classification.verdicts := by
  have verdicts : g.again.verdicts = g.verdicts := verdicts_replacing map_id_outcomes
  have again : g.again.classification.verdicts = g.again.verdicts g.again.flags := rfl
  rw [again, verdicts, flags_again]
  rfl

/-- Whether a procedure can be woven is decided in the same way. -/
theorem attempt_again : g.again.classification.attempt = g.classification.attempt := by
  unfold Classification.attempt Procedure.weave Classification.errorFor? Classification.isSuspending
    Classification.verdict?
  rw [errors_again, verdicts_again]

/-! ## The second weaving -/

/-- The calls of the procedures are marked already. -/
theorem marked_again (found : g.unit.procedures[i]? = some p) :
    (g.node i (g.outcome i p)).classified g.flags = g.outcome i p := by
  obtain ⟨weaves, bare⟩ | ⟨same, kept⟩ := node_outcome_cases found
  · obtain ⟨live, cut, assembled⟩ := weaves.assembled
    rw [bare]
    unfold CallNode.classified
    rw [assembled.woven]
    rfl
  · rw [kept, same]
    exact CallNode.classified_classified _ _

theorem procedures_annotated_again : g.again.annotated.procedures = g.outcomes := by
  have form : g.again.annotated.procedures =
      g.again.nodes.map fun n => n.classified g.again.flags := rfl
  rw [form, nodes_again, flags_again, List.map_map]
  exact List.map_congr_left fun x mem => marked_again (List.mem_zipIdx_iff_getElem?.1 mem)

/-- Nothing is woven any more. -/
theorem attempt_outcome (found : g.unit.procedures[i]? = some p) (woven : WovenProcedure) :
    g.classification.attempt (g.outcome i p) ≠ .ok (some woven) := by
  obtain ⟨-, -, weaves⟩ | ⟨same, other⟩ := outcome_cases found
  · intro attempt
    obtain ⟨-, -, unwoven, -⟩ := Classification.attempt_eq_some attempt
    obtain ⟨live, cut, assembled⟩ := weaves.assembled
    rw [assembled.woven] at unwoven
    cases unwoven
  · rw [same]
    exact other woven

/-- What could not be woven cannot be woven again, for the same reason. -/
theorem failureOf?_outcome (found : g.unit.procedures[i]? = some p) :
    g.classification.failureOf? (g.outcome i p) = g.classification.failureOf? (g.marked i p) := by
  obtain ⟨holder, attempt, weaves⟩ | ⟨same, -⟩ := outcome_cases found
  · obtain ⟨live, cut, assembled⟩ := weaves.assembled
    have id : (g.outcome i p).id = p.id := id_outcome found
    have idle : g.classification.attempt (g.outcome i p) = .ok none := by
      unfold Classification.attempt Procedure.weave
      simp [id, weaves.noError, weaves.verdict, assembled.woven]
    unfold Classification.failureOf?
    rw [idle, attempt]
  · rw [same]

end CallGraph

/-- A procedure that is not woven is left alone. -/
theorem Classification.weave_eq_of_idle {c : Classification} {unit : CompilationUnit}
    (idle : ∀ p ∈ unit.procedures, ∀ woven, c.attempt p ≠ .ok (some woven)) :
    (c.weave unit).procedures = unit.procedures ∧ (c.weave unit).holders = [] := by
  have after : ∀ p ∈ unit.procedures, c.procedureAfter p = p ∧ c.holderOf? p = none := by
    intro p mem
    unfold procedureAfter holderOf?
    split
    · rename_i woven attempt
      exact absurd attempt (idle p mem woven)
    · exact ⟨rfl, rfl⟩
  constructor
  · exact (List.map_congr_left fun p mem => (after p mem).1).trans (List.map_id _)
  · exact List.filterMap_eq_nil_iff.2 fun p mem => (after p mem).2

namespace CallGraph

variable (g : CallGraph)

theorem procedures_annotated :
    g.annotated.procedures = g.unit.procedures.zipIdx.map fun x => g.marked x.2 x.1 :=
  List.map_map

theorem procedures_weave : (g.unit.weave g.external g.config).procedures = g.outcomes := by
  have once : (g.unit.weave g.external g.config).procedures =
      g.annotated.procedures.map g.classification.procedureAfter := rfl
  rw [once, procedures_annotated, List.map_map]
  rfl

theorem idle_again : ∀ p ∈ g.again.annotated.procedures, ∀ woven,
    g.again.classification.attempt p ≠ .ok (some woven) := by
  intro p mem
  rw [procedures_annotated_again] at mem
  obtain ⟨x, place, rfl⟩ := List.mem_map.1 mem
  rw [attempt_again]
  exact attempt_outcome (List.mem_zipIdx_iff_getElem?.1 place)

theorem failures_again :
    g.again.annotated.procedures.filterMap g.again.classification.failureOf? =
      g.annotated.procedures.filterMap g.classification.failureOf? := by
  have failureOf? : g.again.classification.failureOf? = g.classification.failureOf? := by
    unfold Classification.failureOf?
    rw [attempt_again]
  rw [procedures_annotated_again, failureOf?, procedures_annotated, outcomes,
    List.filterMap_map, List.filterMap_map]
  exact List.filterMap_congr fun x mem => failureOf?_outcome (List.mem_zipIdx_iff_getElem?.1 mem)

end CallGraph

/-- Weaving what a weaving gives changes nothing: the procedures are the same, there is no
holder, and what could not be woven cannot be woven for the same reasons. -/
theorem CompilationUnit.weave_weave (unit : CompilationUnit) (external : ExternalResolver)
    (config : AnalysisConfig) :
    let once := unit.weave external config
    let twice := CompilationUnit.weave { unit with procedures := once.procedures } external config
    twice.procedures = once.procedures ∧ twice.holders = [] ∧ twice.failures = once.failures := by
  let g : CallGraph := { external, config, unit }
  have procedures : (unit.weave external config).procedures = g.outcomes := g.procedures_weave
  obtain ⟨same, holders⟩ := Classification.weave_eq_of_idle g.idle_again
  intro once twice
  have again : twice = g.again.classification.weave g.again.annotated := by
    change CompilationUnit.weave { unit with procedures := (unit.weave external config).procedures }
      external config = _
    rw [procedures]
    rfl
  rw [again]
  exact ⟨same.trans (g.procedures_annotated_again.trans procedures.symm), holders,
    g.failures_again⟩

end Resumable
