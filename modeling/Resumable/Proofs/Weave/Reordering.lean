import Resumable.Proofs.Classify.Reordering
import Resumable.Proofs.Weave.Idempotence

/-!
# The order of declarations

Weaving looks at one procedure at a time, and all it takes from the rest of the unit are the
marks on the calls, the verdicts and the errors.  None of them depends on the order in which
the procedures and the types of the unit are declared, so the order does not show in what
becomes of a procedure (`CompilationUnit.weave_reordered`).
-/

namespace Resumable

/-- The holder of a woven procedure is made from its states. -/
theorem Classification.holder_of_attempt {c : Classification} {p : Procedure}
    {woven : WovenProcedure} (attempt : c.attempt p = .ok (some woven)) :
    woven.holder = woven.procedure.holder := by
  unfold Classification.attempt Procedure.weave at attempt
  cases noError : c.errorFor? p.id with
  | some e =>
    rw [noError] at attempt
    cases attempt
  | none =>
    simp only [noError] at attempt
    repeat' split at attempt
    all_goals cases attempt
    rfl

namespace CallGraph

variable {g g' : CallGraph} {i : Nat} {p : Procedure}

/-! ## One procedure -/

/-- A holder names the procedure that it belongs to. -/
theorem procedure_of_holderOf? (found : g.unit.procedures[i]? = some p) {holder : StateHolder}
    (made : g.classification.holderOf? (g.marked i p) = some holder) :
    holder.procedure = p.id := by
  unfold Classification.holderOf? at made
  obtain ⟨holder', attempt, -⟩ | ⟨-, other⟩ := outcome_cases found
  · rw [attempt] at made
    cases made
    rw [Classification.holder_of_attempt attempt]
    exact id_outcome found
  · split at made
    · rename_i woven attempt
      exact absurd attempt (other woven)
    · cases made

/-- A failure names the procedure that it is about. -/
theorem proc_of_failureOf? {failure : WeaveFailure}
    (made : g.classification.failureOf? (g.marked i p) = some failure) :
    failure.proc = p.id := by
  unfold Classification.failureOf? at made
  split at made
  · cases made
    exact id_marked
  · cases made

/-- The position of a procedure by its identity. -/
def home (g : CallGraph) (p : Procedure) : Nat := (g.position? p.id).getD 0

theorem Distinct.home_eq (h : g.Distinct) (found : g.unit.procedures[i]? = some p) :
    g.home p = i := by
  have position : g.position? p.id = some i := h.position?_eq_some_iff.2 ⟨p, found, rfl⟩
  unfold home
  rw [position, Option.getD_some]

/-- Procedures with different identities need no numbers. -/
theorem Distinct.map_zipIdx {α : Type} (h : g.Distinct) (f : Nat → Procedure → α) :
    (g.unit.procedures.zipIdx.map fun x => f x.2 x.1) =
      g.unit.procedures.map fun p => f (g.home p) p := by
  conv_rhs => rw [← List.zipIdx_map_fst 0 g.unit.procedures, List.map_map]
  refine List.map_congr_left fun x mem => ?_
  have home := h.home_eq (List.mem_zipIdx_iff_getElem?.1 mem)
  simp only [Function.comp_apply, home]

namespace Reorders

theorem marked_eq (h : g.Reorders g') (mem : p ∈ g.unit.procedures) :
    g'.marked (g'.home p) p = g.marked (g.home p) p := by
  obtain ⟨i, found⟩ := List.getElem?_of_mem mem
  rw [h.distinct.home_eq found, h.distinct_reordered.home_eq (h.found_place found)]
  exact h.classified_eq found

/-- Whether a procedure can be woven is decided in the same way. -/
theorem attempt_eq (h : g.Reorders g') :
    g'.classification.attempt = g.classification.attempt := by
  have errors : g'.classification.errorFor? = g.classification.errorFor? := funext h.errorFor?_eq
  have verdicts : g'.classification.verdict? = g.classification.verdict? := funext h.verdict?_eq
  unfold Classification.attempt Procedure.weave Classification.isSuspending
  rw [errors, verdicts]

end Reorders

/-- What becomes of a procedure of the unit. -/
def after (g : CallGraph) (p : Procedure) : Procedure :=
  g.classification.procedureAfter (g.marked (g.home p) p)

/-- The holder of a procedure of the unit, if it is woven. -/
def holder? (g : CallGraph) (p : Procedure) : Option StateHolder :=
  g.classification.holderOf? (g.marked (g.home p) p)

/-- The reason why a procedure of the unit was not woven, if there is one. -/
def failure? (g : CallGraph) (p : Procedure) : Option WeaveFailure :=
  g.classification.failureOf? (g.marked (g.home p) p)

namespace Reorders

variable (h : g.Reorders g') (mem : p ∈ g'.unit.procedures)
include h mem

theorem after_eq : g'.after p = g.after p := by
  unfold after Classification.procedureAfter
  rw [h.marked_eq (h.procedures.mem_iff.1 mem), h.attempt_eq]

theorem holder?_eq : g'.holder? p = g.holder? p := by
  unfold holder? Classification.holderOf?
  rw [h.marked_eq (h.procedures.mem_iff.1 mem), h.attempt_eq]

theorem failure?_eq : g'.failure? p = g.failure? p := by
  unfold failure? Classification.failureOf?
  rw [h.marked_eq (h.procedures.mem_iff.1 mem), h.attempt_eq]

end Reorders

theorem proc_of_failure? {failure : WeaveFailure} (made : g.failure? p = some failure) :
    failure.proc = p.id :=
  proc_of_failureOf? made

/-! ## The unit -/

theorem holders_weave (g : CallGraph) : (g.unit.weave g.external g.config).holders =
    g.annotated.procedures.filterMap g.classification.holderOf? := rfl

theorem failures_weave (g : CallGraph) : (g.unit.weave g.external g.config).failures =
    g.annotated.procedures.filterMap g.classification.failureOf? := rfl

namespace Distinct

variable (h : g.Distinct)
include h

theorem procedure_of_holder? {holder : StateHolder} (mem : p ∈ g.unit.procedures)
    (made : g.holder? p = some holder) : holder.procedure = p.id := by
  obtain ⟨i, found⟩ := List.getElem?_of_mem mem
  unfold holder? at made
  rw [h.home_eq found] at made
  exact procedure_of_holderOf? found made

theorem procedures_weave :
    (g.unit.weave g.external g.config).procedures = g.unit.procedures.map g.after :=
  g.procedures_weave.trans (h.map_zipIdx g.outcome)

theorem procedures_annotated :
    g.annotated.procedures = g.unit.procedures.map fun p => g.marked (g.home p) p :=
  g.procedures_annotated.trans (h.map_zipIdx g.marked)

theorem holders_weave :
    (g.unit.weave g.external g.config).holders = g.unit.procedures.filterMap g.holder? := by
  rw [CallGraph.holders_weave, h.procedures_annotated, List.filterMap_map]
  rfl

theorem failures_weave :
    (g.unit.weave g.external g.config).failures = g.unit.procedures.filterMap g.failure? := by
  rw [CallGraph.failures_weave, h.procedures_annotated, List.filterMap_map]
  rfl

/-- What is made of a procedure and names it is found by its identity. -/
theorem find?_filterMap {β : Type} {made : Procedure → Option β} {key : β → ProcId}
    (names : ∀ p ∈ g.unit.procedures, ∀ b, made p = some b → key b = p.id)
    (mem : p ∈ g.unit.procedures) :
    (g.unit.procedures.filterMap made).find? (key · == p.id) = made p := by
  have here : g.unit.procedures.find? (·.id == p.id) = some p :=
    (find?_eq_some_iff_of_nodup h.procedures).2 ⟨mem, rfl⟩
  rw [List.filterMap_eq_flatMap_toList, find?_flatMap_of_nodup h.procedures, here]
  · simp
  · intro q mem b there
    exact names q mem b (Option.mem_toList.1 there)

end Distinct

end CallGraph

/-- What two weavings have to do with each other whose units differ in the order of the
declarations. -/
structure WovenUnit.Reorders (unit unit' : CompilationUnit) (once other : WovenUnit) : Prop where
  /-- One procedure comes out for each that went in. -/
  length : other.procedures.length = unit'.procedures.length
  /-- The same comes out for the same procedure. -/
  procedures : ∀ (i j : Nat) (p : Procedure), unit.procedures[i]? = some p →
    unit'.procedures[j]? = some p →
    ∃ q, once.procedures[i]? = some q ∧ other.procedures[j]? = some q
  /-- The holders stand in the order of their procedures. -/
  holders : other.holders = unit'.procedures.filterMap fun p =>
    once.holders.find? (·.procedure == p.id)
  holders_perm : other.holders.Perm once.holders
  /-- The failures stand in the order of their procedures. -/
  failures : other.failures = unit'.procedures.filterMap fun p =>
    once.failures.find? (·.proc == p.id)
  failures_perm : other.failures.Perm once.failures

/-- The order in which a unit declares its procedures and its types shows in the order of what
comes out and in nothing else. -/
theorem CompilationUnit.weave_reordered (unit unit' : CompilationUnit)
    (external : ExternalResolver) (config : AnalysisConfig)
    (ids : (unit.procedures.map Procedure.id).Nodup)
    (names : (unit.types.map TypeDecl.name).Nodup)
    (procedures : unit'.procedures.Perm unit.procedures)
    (types : unit'.types.Perm unit.types) :
    WovenUnit.Reorders unit unit' (unit.weave external config) (unit'.weave external config) ∧
      ∀ id, (unit'.classify external config).1.verdict? id =
        (unit.classify external config).1.verdict? id := by
  let g : CallGraph := { external, config, unit }
  let g' : CallGraph := { external, config, unit := unit' }
  have h : g.Reorders g' := ⟨rfl, rfl, procedures, types, ids, names⟩
  have once : (unit.weave external config).procedures = unit.procedures.map g.after :=
    h.distinct.procedures_weave
  have other : (unit'.weave external config).procedures = unit'.procedures.map g.after :=
    h.distinct_reordered.procedures_weave.trans (List.map_congr_left fun _ mem => h.after_eq mem)
  have onceHolders : (unit.weave external config).holders = unit.procedures.filterMap g.holder? :=
    h.distinct.holders_weave
  have otherHolders : (unit'.weave external config).holders =
      unit'.procedures.filterMap g.holder? :=
    h.distinct_reordered.holders_weave.trans (List.filterMap_congr fun _ mem => h.holder?_eq mem)
  have onceFailures : (unit.weave external config).failures =
      unit.procedures.filterMap g.failure? := h.distinct.failures_weave
  have otherFailures : (unit'.weave external config).failures =
      unit'.procedures.filterMap g.failure? :=
    h.distinct_reordered.failures_weave.trans (List.filterMap_congr fun _ mem => h.failure?_eq mem)
  refine ⟨⟨?_, ?_, ?_, ?_, ?_, ?_⟩, h.verdict?_eq⟩
  · rw [other, List.length_map]
  · intro i j p here there
    refine ⟨g.after p, ?_, ?_⟩
    · rw [once, List.getElem?_map, here, Option.map_some]
    · rw [other, List.getElem?_map, there, Option.map_some]
  · rw [otherHolders, onceHolders]
    refine List.filterMap_congr fun p mem => ?_
    have names : ∀ q ∈ g.unit.procedures, ∀ b, g.holder? q = some b → b.procedure = q.id :=
      fun _ mem _ made => h.distinct.procedure_of_holder? mem made
    exact (h.distinct.find?_filterMap names (procedures.mem_iff.1 mem)).symm
  · rw [otherHolders, onceHolders]
    exact procedures.filterMap g.holder?
  · rw [otherFailures, onceFailures]
    refine List.filterMap_congr fun p mem => ?_
    have names : ∀ q ∈ g.unit.procedures, ∀ b, g.failure? q = some b → b.proc = q.id :=
      fun _ _ _ made => CallGraph.proc_of_failure? made
    exact (h.distinct.find?_filterMap names (procedures.mem_iff.1 mem)).symm
  · rw [otherFailures, onceFailures]
    exact procedures.filterMap g.failure?

/-- A unit with its declarations in the opposite order. -/
def CompilationUnit.reversed (u : CompilationUnit) : CompilationUnit :=
  { u with types := u.types.reverse, procedures := u.procedures.reverse }

/-- Two types with members that call each other, in both orders. -/
theorem weave_mirrors_reversed :
    (mirrors.procedures.map Procedure.id).Nodup ∧ (mirrors.types.map TypeDecl.name).Nodup ∧
      (mirrors.weave ExternalMetadata.empty .standard).holders.length = 2 ∧
      WovenUnit.Reorders mirrors mirrors.reversed (mirrors.weave ExternalMetadata.empty .standard)
        (mirrors.reversed.weave ExternalMetadata.empty .standard) := by
  have ids : (mirrors.procedures.map Procedure.id).Nodup := by decide
  have names : (mirrors.types.map TypeDecl.name).Nodup := by decide
  have reordered := mirrors.weave_reordered mirrors.reversed ExternalMetadata.empty .standard ids
    names (List.reverse_perm _) (List.reverse_perm _)
  exact ⟨ids, names, by decide +kernel, reordered.1⟩

end Resumable
