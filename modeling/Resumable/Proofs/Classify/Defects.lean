import Resumable.Proofs.Classify.LeastFixedPoint

/-!
# Procedures without defects

An error is recorded for every procedure that has a defect and, under strict resolution, for
every one with a call that leads nowhere.  So a procedure that no error was recorded for can
be trusted: it stands at the first position of its identity, its graph is well formed, and
its calls count (`CallGraph.trusted_of_errorFor?`).
-/

namespace Resumable

theorem CallNode.id_classified (n : CallNode) (flags : List Bool) :
    (n.classified flags).id = n.procedure.id := by
  unfold classified
  split <;> rfl

theorem CallNode.attrs_classified (n : CallNode) (flags : List Bool) :
    (n.classified flags).attrs = n.procedure.attrs := by
  unfold classified
  split <;> rfl

namespace CallGraph

variable {g : CallGraph} {i : Nat} {p : Procedure}

theorem defect?_eq_none_iff : g.defect? i p = none ↔ g.position? p.id = some i ∧
    p.validate = .ok () ∧ (p.attrs.bridge = true → p.calls.length = 1) := by
  unfold defect?
  by_cases first : g.position? p.id = some i
  · cases valid : p.validate with
    | error e => simp [first]
    | ok _ => simp [first]
  · simp [first]

/-- A defect names the procedure that has it. -/
theorem procedure_defect? {e : AnalysisError} (h : g.defect? i p = some e) :
    e.procedure = p.id := by
  unfold defect? at h
  split at h
  · cases h
    rfl
  · split at h
    · cases h
      rfl
    · split at h
      · cases h
        rfl
      · cases h

theorem node_broken : (g.node i p).broken = ((g.defect? i p).isSome ||
    (g.config.strictResolution && (g.node i p).sites.any Site.isUnresolved)) :=
  rfl

/-- A procedure that no error was recorded for has no defect, and it counts. -/
theorem trusted_of_errorFor? (found : g.unit.procedures[i]? = some p)
    (none : g.classification.errorFor? p.id = none) :
    g.defect? i p = Option.none ∧ (g.node i p).broken = false := by
  have other : ∀ e ∈ g.classification.errors, e.procedure ≠ p.id := by
    simpa [Classification.errorFor?] using none
  have mem : g.node i p ∈ g.nodes := List.mem_of_getElem? (getElem?_nodes_of_found found)
  have sound : g.defect? i p = Option.none := by
    cases defect : g.defect? i p with
    | none => rfl
    | some e =>
      refine absurd (procedure_defect? defect) (other e ?_)
      exact List.mem_append_left _ (List.mem_filterMap.2 ⟨_, mem, defect⟩)
  refine ⟨sound, ?_⟩
  rw [node_broken, sound, Option.isSome_none, Bool.false_or]
  cases strict : g.config.strictResolution with
  | false => rfl
  | true =>
    rw [Bool.true_and, List.any_eq_false]
    intro s site unresolved
    have listed : (⟨p.id, s.callee⟩ : UnresolvedCall) ∈ g.nodes.flatMap CallNode.unresolved :=
      List.mem_flatMap.2 ⟨_, mem, List.mem_map.2 ⟨s, List.mem_filter.2 ⟨site, unresolved⟩, rfl⟩⟩
    refine other (.unresolvedCall p.id s.callee) (List.mem_append_right _ ?_) rfl
    rw [strict]
    exact List.mem_map.2 ⟨_, listed, rfl⟩

end CallGraph

end Resumable
