import Resumable.Proofs.Classify.Duplicate
import Resumable.Proofs.Weave.Accounting
import Resumable.Proofs.Weave.Reordering

/-!
# Weaving a unit with a second definition

When a procedure is added whose identity the unit has already, nothing changes for the
procedures with other identities, unless the second definition is declared to suspend and the
first one does not suspend (`CompilationUnit.weave_duplicate`).

The first definition does not always stay what it was.  The error that is recorded for the
second one is found by the identity, so neither of the two is woven
(`weave_worker_again`).
-/

namespace Resumable

namespace CallGraph

variable {g : CallGraph} {d p : Procedure} {k i : Nat}

section

variable (first : g.position? d.id = some k)
include first

/-- Neither of two procedures with one identity is woven. -/
theorem attempt_adding_same (same : p.id = d.id) :
    ∃ e, (g.adding d).classification.attempt p = .error e := by
  obtain ⟨e, error⟩ := (errorFor?_adding first).1 same
  exact ⟨_, (g.adding d).classification.attempt_of_error error⟩

variable (quiet : g.Quiet d k)
include quiet

theorem marked_adding : (g.adding d).marked i p = g.marked i p := classified_adding first quiet

/-- Whether another procedure is woven is decided as before. -/
theorem attempt_adding_other (other : p.id ≠ d.id) {j : Nat}
    (position : g.position? p.id = some j) :
    (g.adding d).classification.attempt p = g.classification.attempt p := by
  unfold Classification.attempt Procedure.weave Classification.isSuspending
  rw [(errorFor?_adding first).2 other, verdict?_adding first quiet position]

theorem attempt_adding_cases (found : g.unit.procedures[i]? = some p) :
    p.id ≠ d.id ∧ (g.adding d).classification.attempt (g.marked i p) =
      g.classification.attempt (g.marked i p) ∨
    p.id = d.id ∧ ∃ e, (g.adding d).classification.attempt (g.marked i p) = .error e := by
  have id : (g.marked i p).id = p.id := id_marked
  by_cases same : p.id = d.id
  · exact Or.inr ⟨same, attempt_adding_same first (id.trans same)⟩
  · obtain ⟨j, position⟩ := exists_position? (List.mem_of_getElem? found)
    exact Or.inl ⟨same, attempt_adding_other first quiet (id ▸ same) (id ▸ position)⟩

theorem procedureAfter_adding (found : g.unit.procedures[i]? = some p) :
    (g.adding d).classification.procedureAfter (g.marked i p) =
      if (g.marked i p).id = d.id then g.marked i p else g.outcome i p := by
  rw [id_marked]
  unfold outcome Classification.procedureAfter
  rcases attempt_adding_cases first quiet found with ⟨other, attempt⟩ | ⟨same, e, attempt⟩
  · rw [attempt, if_neg other]
  · rw [attempt, if_pos same]

theorem holderOf?_adding (found : g.unit.procedures[i]? = some p) :
    (g.adding d).classification.holderOf? (g.marked i p) =
      (g.classification.holderOf? (g.marked i p)).filter (·.procedure ≠ d.id) := by
  have filtered : (g.classification.holderOf? (g.marked i p)).filter (·.procedure ≠ d.id) =
      if p.id = d.id then none else g.classification.holderOf? (g.marked i p) := by
    cases made : g.classification.holderOf? (g.marked i p) with
    | none => simp
    | some holder => simp [Option.filter, procedure_of_holderOf? found made]
  rw [filtered]
  unfold Classification.holderOf?
  rcases attempt_adding_cases first quiet found with ⟨other, attempt⟩ | ⟨same, e, attempt⟩
  · rw [attempt, if_neg other]
  · rw [attempt, if_pos same]

theorem failureOf?_adding (found : g.unit.procedures[i]? = some p) :
    ((g.adding d).classification.failureOf? (g.marked i p)).filter (·.proc ≠ d.id) =
      (g.classification.failureOf? (g.marked i p)).filter (·.proc ≠ d.id) := by
  rcases attempt_adding_cases first quiet found with ⟨-, attempt⟩ | ⟨same, -⟩
  · unfold Classification.failureOf?
    rw [attempt]
  · -- on both sides there is no failure with another identity
    have none : ∀ c : Classification,
        (c.failureOf? (g.marked i p)).filter (·.proc ≠ d.id) = none := by
      intro c
      unfold Classification.failureOf?
      split
      · simp [id_marked, same]
      · rfl
    rw [none, none]

/-! ## The unit -/

theorem annotated_adding :
    (g.adding d).annotated.procedures = g.annotated.procedures ++ [d] := by
  have last : g.marked g.unit.procedures.length d = d := by
    rw [← marked_adding first quiet]
    unfold marked
    rw [node_duplicate first]
    rfl
  have whole : (g.adding d).annotated.procedures =
      (g.unit.procedures ++ [d]).zipIdx.map fun x => (g.adding d).marked x.2 x.1 :=
    (g.adding d).procedures_annotated
  rw [whole, List.zipIdx_append, List.map_append, procedures_annotated]
  simp [marked_adding first quiet, last]

theorem outcomes_adding : (g.adding d).outcomes =
    List.zipWith (fun p woven => if p.id = d.id then p else woven) g.annotated.procedures
      g.outcomes ++ [d] := by
  obtain ⟨e, attempt⟩ := attempt_adding_same first rfl
  have last : (g.adding d).classification.procedureAfter d = d := by
    unfold Classification.procedureAfter
    rw [attempt]
  have whole : (g.adding d).outcomes =
      (g.adding d).annotated.procedures.map (g.adding d).classification.procedureAfter := by
    rw [procedures_annotated, List.map_map]
    rfl
  rw [whole, annotated_adding first quiet, List.map_append, List.map_singleton, last,
    procedures_annotated, outcomes, List.map_map, List.zipWith_map, List.zipWith_self]
  congr 1
  exact List.map_congr_left fun x mem =>
    procedureAfter_adding first quiet (List.mem_zipIdx_iff_getElem?.1 mem)

theorem holders_adding :
    (g.adding d).annotated.procedures.filterMap (g.adding d).classification.holderOf? =
      (g.annotated.procedures.filterMap g.classification.holderOf?).filter
        (·.procedure ≠ d.id) := by
  obtain ⟨e, attempt⟩ := attempt_adding_same first rfl
  have last : (g.adding d).classification.holderOf? d = none := by
    unfold Classification.holderOf?
    rw [attempt]
  rw [annotated_adding first quiet, List.filterMap_append, List.filterMap_cons_none last,
    List.filterMap_nil, List.append_nil, List.filter_filterMap, procedures_annotated,
    List.filterMap_map, List.filterMap_map]
  exact List.filterMap_congr fun x mem =>
    holderOf?_adding first quiet (List.mem_zipIdx_iff_getElem?.1 mem)

theorem failures_adding :
    ((g.adding d).annotated.procedures.filterMap
        (g.adding d).classification.failureOf?).filter (·.proc ≠ d.id) =
      (g.annotated.procedures.filterMap g.classification.failureOf?).filter
        (·.proc ≠ d.id) := by
  obtain ⟨e, attempt⟩ := attempt_adding_same first rfl
  have last : (g.adding d).classification.failureOf? d = some ⟨d.id, e.message⟩ := by
    unfold Classification.failureOf?
    rw [attempt]
  rw [annotated_adding first quiet, List.filterMap_append, List.filterMap_cons_some last,
    List.filterMap_nil, List.filter_append, List.filter_filterMap, List.filter_filterMap,
    procedures_annotated, List.filterMap_map, List.filterMap_map]
  have dropped : List.filter (·.proc ≠ d.id) [(⟨d.id, e.message⟩ : WeaveFailure)] = [] := by simp
  rw [dropped, List.append_nil]
  exact List.filterMap_congr fun x mem =>
    failureOf?_adding first quiet (List.mem_zipIdx_iff_getElem?.1 mem)

end

end CallGraph

/-- What is made of a unit (`alone`) and of the unit with the procedure `d` at its end (`both`),
which has the identity of another one.  `marked` are the procedures of the unit with their calls
marked. -/
structure WovenUnit.Doubles (marked : List Procedure) (d : Procedure) (alone both : WovenUnit) :
    Prop where
  /-- The procedures with other identities come out as before, the others as they went in. -/
  procedures : both.procedures =
    List.zipWith (fun p woven => if p.id = d.id then p else woven) marked alone.procedures ++ [d]
  /-- If no procedure with this identity was woven, all of them come out as before. -/
  unharmed : (∀ holder ∈ alone.holders, holder.procedure ≠ d.id) →
    both.procedures = alone.procedures ++ [d]
  /-- No procedure with this identity is woven. -/
  holders : both.holders = alone.holders.filter (·.procedure ≠ d.id)
  failures : both.failures.filter (·.proc ≠ d.id) = alone.failures.filter (·.proc ≠ d.id)

/-- A second definition does not change what becomes of the procedures with other identities,
if it is not declared to suspend, or the first one suspends. -/
theorem CompilationUnit.weave_duplicate (unit : CompilationUnit) (external : ExternalResolver)
    (config : AnalysisConfig) {d : Procedure} (defined : ∃ p ∈ unit.procedures, p.id = d.id)
    (quiet : CallGraph.Declared d →
      (unit.classify external config).1.isSuspending d.id = true) :
    WovenUnit.Doubles (unit.classify external config).2.procedures d
      (unit.weave external config)
      (CompilationUnit.weave { unit with procedures := unit.procedures ++ [d] } external
        config) := by
  let g : CallGraph := { external, config, unit }
  obtain ⟨k, first⟩ : ∃ k, g.position? d.id = some k := by
    obtain ⟨p, mem, same⟩ := defined
    exact same ▸ CallGraph.exists_position? (g := g) mem
  have quiet : g.Quiet d k := by
    intro declared
    obtain ⟨flag, here, verdict⟩ := CallGraph.verdict?_classification first
    have suspends : g.classification.isSuspending d.id = true := quiet declared
    unfold Classification.isSuspending at suspends
    rw [verdict] at suspends
    rw [← suspendingNodes_iff, here]
    cases flag with
    | true => rfl
    | false => cases suspends
  have alone : (unit.weave external config).procedures = g.outcomes := g.procedures_weave
  have both : (CompilationUnit.weave { unit with procedures := unit.procedures ++ [d] } external
      config).procedures = (g.adding d).outcomes := (g.adding d).procedures_weave
  have holders : (unit.weave external config).holders = _ := g.holders_weave
  refine ⟨?_, fun unwoven => ?_, ?_, ?_⟩
  · rw [both, alone]
    exact CallGraph.outcomes_adding first quiet
  · rw [both, alone, CallGraph.outcomes_adding first quiet, g.procedures_annotated,
      CallGraph.outcomes, List.zipWith_map, List.zipWith_self]
    congr 1
    refine List.map_congr_left fun x mem => ?_
    have found := List.mem_zipIdx_iff_getElem?.1 mem
    split
    · rename_i same
      obtain ⟨holder, attempt, -⟩ | ⟨kept, -⟩ := CallGraph.outcome_cases found
      · have made : g.classification.holderOf? (g.marked x.2 x.1) = some holder := by
          unfold Classification.holderOf?
          rw [attempt]
        have listed : holder ∈ (unit.weave external config).holders := by
          rw [holders, g.procedures_annotated, List.filterMap_map]
          exact List.mem_filterMap.2 ⟨x, mem, made⟩
        exact absurd ((CallGraph.procedure_of_holderOf? found made).trans
          (CallGraph.id_marked.symm.trans same)) (unwoven holder listed)
      · exact kept.symm
    · rfl
  · rw [holders, ← CallGraph.holders_adding first quiet]
    exact (g.adding d).holders_weave
  · have failures : (unit.weave external config).failures = _ := g.failures_weave
    rw [failures, ← CallGraph.failures_adding first quiet]
    exact congrArg (List.filter _) (g.adding d).failures_weave

/-- Of two types with members that call each other and suspend, one gets a second, empty member
with the same identity.  Its first member is not woven any more, the member of the other type
still is. -/
theorem weave_mirrors_duplicate :
    (∃ p ∈ mirrors.procedures, p.id = (stepOf "Left" []).id) ∧
      (CallGraph.Declared (stepOf "Left" []) →
        (mirrors.classify ExternalMetadata.empty .standard).1.isSuspending
          (stepOf "Left" []).id = true) ∧
      (mirrors.weave ExternalMetadata.empty .standard).holders.map (·.procedure.owner) =
        ["Left", "Right"] ∧
      (CompilationUnit.weave { mirrors with
        procedures := mirrors.procedures ++ [stepOf "Left" []] } ExternalMetadata.empty
        .standard).holders.map (·.procedure.owner) = ["Right"] := by
  have defined : ∃ p ∈ mirrors.procedures, p.id = (stepOf "Left" []).id := by decide
  have quiet : CallGraph.Declared (stepOf "Left" []) →
      (mirrors.classify ExternalMetadata.empty .standard).1.isSuspending
        (stepOf "Left" []).id = true := fun _ => by decide +kernel
  have doubles := mirrors.weave_duplicate ExternalMetadata.empty .standard defined quiet
  refine ⟨defined, quiet, by decide +kernel, ?_⟩
  rw [doubles.holders]
  decide +kernel

/-- One procedure, which yields. -/
def worker : CompilationUnit :=
  { name := "worker", types := [], procedures := [stepOf "Worker" [Primitive.yield.call]] }

/-- Alone the procedure is woven.  When an empty procedure with the same identity follows it, it
is left as it is, and listed as a failure as well. -/
theorem weave_worker_again :
    let alone := worker.weave ExternalMetadata.empty .standard
    let both := CompilationUnit.weave { worker with
      procedures := worker.procedures ++ [stepOf "Worker" []] } ExternalMetadata.empty .standard
    (∃ p ∈ worker.procedures, p.id = (stepOf "Worker" []).id) ∧
      alone.procedures.map (·.attrs.woven) = [true] ∧ alone.failures = [] ∧
      both.procedures.map (·.attrs.woven) = [false, false] ∧
      both.procedures.take worker.procedures.length ≠ alone.procedures ∧
      both.failures.map (·.proc) = [(stepOf "Worker" []).id, (stepOf "Worker" []).id] := by
  decide +kernel

end Resumable
