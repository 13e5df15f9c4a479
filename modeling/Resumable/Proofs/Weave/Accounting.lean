import Resumable.Proofs.Weave.Acceptance
import Resumable.Proofs.Weave.CleanUnit
import Resumable.Proofs.Weave.Idempotence

/-!
# Weaving a unit accounts for every procedure

What becomes of a procedure of a unit is one of three things (`Classification.Disposes`): an
error was recorded for it, and it is passed on with a failure; it is woven and gets a holder; or
it is passed on because there is nothing to weave.  The three lists of the result are made of
that, procedure by procedure (`CompilationUnit.weave_accounts`).

There is no fourth way, since the transformation cannot fail on what the classification lets
through: a procedure without an error is valid and has just been marked, at calls only,
whatever marks it came with (`CallGraph.marksCalls_marked`).
-/

namespace Resumable

/-! ## Holders -/

section Slots

variable {seen : List LocalId} {slots : List LiveSlot}

theorem firstSlots_subset : firstSlots seen slots ⊆ slots := by
  induction slots generalizing seen with
  | nil => exact List.Subset.refl _
  | cons slot rest ih =>
    rw [firstSlots]
    split
    · exact List.subset_cons_of_subset _ ih
    · exact List.cons_subset_cons _ ih

theorem mem_map_firstSlots {l : LocalId} :
    l ∈ (firstSlots seen slots).map LiveSlot.localId ↔
      l ∈ slots.map LiveSlot.localId ∧ l ∉ seen := by
  induction slots generalizing seen with
  | nil => simp [firstSlots]
  | cons slot rest ih =>
    rw [firstSlots]
    split
    · rename_i known
      rw [ih, List.map_cons, List.mem_cons]
      refine and_congr_left fun fresh => (or_iff_right ?_).symm
      rintro rfl
      exact fresh known
    · rename_i fresh
      rw [List.map_cons, List.mem_cons, ih, List.map_cons, List.mem_cons, List.mem_cons]
      by_cases same : l = slot.localId
      · simp [same, fresh]
      · simp [same]

theorem nodup_firstSlots : ((firstSlots seen slots).map LiveSlot.localId).Nodup := by
  induction slots generalizing seen with
  | nil => exact List.nodup_nil
  | cons slot rest ih =>
    rw [firstSlots]
    split
    · exact ih
    · refine List.nodup_cons.2 ⟨fun again => ?_, ih⟩
      exact (mem_map_firstSlots.1 again).2 List.mem_cons_self

end Slots

namespace Procedure

variable {p : Procedure}

/-- The slots that the states of a procedure record, but for fresh entry. -/
def savedSlots (p : Procedure) : List LiveSlot :=
  (p.states.filter fun s => s.id != StateId.entry).flatMap ResumptionState.live

theorem mem_savedSlots {slot : LiveSlot} :
    slot ∈ p.savedSlots ↔ ∃ s ∈ p.states, s.id ≠ StateId.entry ∧ slot ∈ s.live := by
  simp [savedSlots, and_assoc]

theorem holder_fields :
    p.holder.fields = Ascending.sort (fun s => s.localId.index) (firstSlots [] p.savedSlots) :=
  rfl

theorem fields_holder_subset : p.holder.fields ⊆ p.savedSlots := fun _ mem =>
  firstSlots_subset (Ascending.mem_sort.1 (holder_fields ▸ mem))

theorem map_fields_holder {l : LocalId} :
    l ∈ p.holder.fields.map LiveSlot.localId ↔ l ∈ p.savedSlots.map LiveSlot.localId := by
  rw [holder_fields, ((Ascending.sort_perm _).map _).mem_iff, mem_map_firstSlots]
  exact and_iff_left List.not_mem_nil

/-- The fields of a holder are strictly ascending, so every local has one. -/
theorem sorted_fields_holder :
    Ascending.Sorted (fun s : LiveSlot => s.localId.index) p.holder.fields := by
  have nodup : (p.holder.fields.map LiveSlot.localId).Nodup := by
    rw [holder_fields, ((Ascending.sort_perm _).map _).nodup_iff]
    exact nodup_firstSlots
  have ascending := @Ascending.pairwise_sort _ (fun s : LiveSlot => s.localId.index)
    (firstSlots [] p.savedSlots)
  rw [← holder_fields] at ascending
  refine (ascending.and (List.pairwise_map.1 nodup)).imp fun {a b} both => ?_
  exact Nat.lt_of_le_of_ne both.1 fun same => both.2 (LocalId.index_injective same)

end Procedure

/-- A holder has a field for each local that its procedure saves, and no others. -/
structure StateHolder.Describes (h : StateHolder) (p : Procedure) : Prop where
  procedure : h.procedure = p.id
  /-- The fields are the slots of the states other than fresh entry. -/
  fields : ∀ slot, slot ∈ h.fields ↔ ∃ s ∈ p.states, s.id ≠ StateId.entry ∧ slot ∈ s.live
  /-- The fields are for the locals that the suspending calls save. -/
  saved : ∀ l, l ∈ h.fields.map LiveSlot.localId ↔ ∃ call ∈ p.suspensions, l ∈ call.2
  ascending : Ascending.Sorted (fun s : LiveSlot => s.localId.index) h.fields

namespace Assembled

variable {p w : Procedure} {live : Liveness} {cut : Cut}

theorem savedSlots_eq (h : Assembled p live cut w) :
    w.savedSlots = cut.states.flatMap ResumptionState.live := by
  obtain ⟨reachable, slots, states⟩ := h.states_eq
  have kept : cut.states.filter (fun s => s.id != StateId.entry) = cut.states :=
    List.filter_eq_self.2 fun s mem => by simpa using h.ne_entry mem
  unfold Procedure.savedSlots
  rw [states, List.map_cons, List.filter_cons_of_neg (by simp), List.filter_map,
    List.flatMap_map]
  exact congrArg (List.flatMap ResumptionState.live) kept

/-- The saved slots are those of the locals that the suspending calls save. -/
theorem mem_savedSlots (h : Assembled p live cut w) {slot : LiveSlot} :
    slot ∈ w.savedSlots ↔ ∃ call ∈ w.suspensions, slot ∈ call.2.map p.slot := by
  rw [h.savedSlots_eq, List.mem_flatMap]
  constructor
  · rintro ⟨s, state, mem⟩
    have known : s.id ∈ w.suspensions.map Prod.fst :=
      h.suspensions_perm.mem_iff.2 (List.mem_map_of_mem state)
    obtain ⟨call, suspends, same⟩ := List.mem_map.1 known
    obtain ⟨-, -, recorded, -⟩ := h.backs suspends
    have nodup := (List.nodup_cons.1 h.nodup_states).2
    have one := List.inj_on_of_nodup_map nodup recorded state same
    rw [← one] at mem
    exact ⟨call, suspends, mem⟩
  · rintro ⟨call, suspends, mem⟩
    obtain ⟨-, -, recorded, -⟩ := h.backs suspends
    exact ⟨_, recorded, mem⟩

/-- The holder of a woven procedure. -/
theorem describes (h : Assembled p live cut w) : w.holder.Describes w where
  procedure := rfl
  fields slot := by
    rw [← Procedure.mem_savedSlots]
    refine ⟨fun mem => Procedure.fields_holder_subset mem, fun mem => ?_⟩
    -- the field for the local of the slot is the slot, as a local has one slot only
    have only : ∀ slot ∈ w.savedSlots, slot = p.slot slot.localId := by
      intro slot mem
      obtain ⟨call, -, mem⟩ := h.mem_savedSlots.1 mem
      obtain ⟨l, -, rfl⟩ := List.mem_map.1 mem
      rw [p.localId_slot]
    obtain ⟨field, there, same⟩ :=
      List.mem_map.1 (Procedure.map_fields_holder.2 (List.mem_map_of_mem mem))
    rw [only slot mem, ← same, ← only field (Procedure.fields_holder_subset there)]
    exact there
  saved l := by
    rw [Procedure.map_fields_holder, List.mem_map]
    constructor
    · rintro ⟨slot, mem, rfl⟩
      obtain ⟨call, suspends, mem⟩ := h.mem_savedSlots.1 mem
      obtain ⟨l, saved, rfl⟩ := List.mem_map.1 mem
      rw [p.localId_slot]
      exact ⟨call, suspends, saved⟩
    · rintro ⟨call, suspends, saved⟩
      exact ⟨p.slot l, h.mem_savedSlots.2 ⟨call, suspends, List.mem_map_of_mem saved⟩,
        p.localId_slot l⟩
  ascending := Procedure.sorted_fields_holder

end Assembled

/-! ## Procedures -/

/-- There is something to weave: nothing is wrong with the procedure, it has a body, it was not
woven before, and it suspends. -/
structure Classification.Weavable (c : Classification) (p : Procedure) : Prop where
  noError : c.errorFor? p.id = none
  body : p.hasBody = true
  unwoven : p.attrs.woven = false
  suspends : c.isSuspending p.id = true

instance (c : Classification) (p : Procedure) : Decidable (c.Weavable p) :=
  decidable_of_iff (c.errorFor? p.id = none ∧ p.hasBody = true ∧ p.attrs.woven = false ∧
      c.isSuspending p.id = true)
    ⟨fun h => ⟨h.1, h.2.1, h.2.2.1, h.2.2.2⟩, fun h => ⟨h.1, h.2, h.3, h.4⟩⟩

/-- What came of a procedure: the procedure that is handed on, its holder and its failure. -/
structure Fate where
  procedure : Procedure
  holder? : Option StateHolder
  failure? : Option WeaveFailure

/-- What is to come of a procedure as the classification left it. -/
inductive Classification.Disposes (c : Classification) (p : Procedure) : Fate → Prop
  /-- An error was recorded.  The first one is the reason. -/
  | failed {e : AnalysisError} (error : c.errorFor? p.id = some e) :
    Disposes c p ⟨p, none, some ⟨p.id, e.message⟩⟩
  | woven {w : Procedure} {holder : StateHolder} (weavable : c.Weavable p)
      (form : p.resumableForm = .ok w) (woven : w.attrs.woven = true) (id : w.id = p.id)
      (describes : holder.Describes w) : Disposes c p ⟨w, some holder, none⟩
  | passed (noError : c.errorFor? p.id = none) (idle : ¬ c.Weavable p) :
    Disposes c p ⟨p, none, none⟩

/-- What comes of a procedure. -/
def Classification.fate (c : Classification) (p : Procedure) : Fate :=
  ⟨c.procedureAfter p, c.holderOf? p, c.failureOf? p⟩

/-- What comes of a procedure after an attempt to weave it. -/
def Fate.after (p : Procedure) : Except WeaveError (Option WovenProcedure) → Fate
  | .ok (some woven) => ⟨woven.procedure, some woven.holder, none⟩
  | .ok none => ⟨p, none, none⟩
  | .error e => ⟨p, none, some ⟨p.id, e.message⟩⟩

theorem Classification.fate_eq (c : Classification) (p : Procedure) :
    c.fate p = .after p (c.attempt p) := by
  unfold fate procedureAfter holderOf? failureOf?
  rcases c.attempt p with e | _ | woven <;> rfl

namespace Classification

variable {c : Classification} {p w : Procedure}

theorem attempt_of_error {e : AnalysisError} (error : c.errorFor? p.id = some e) :
    c.attempt p = .error (.analysis e) := by
  unfold attempt
  rw [error]

theorem attempt_of_weavable (weavable : c.Weavable p) (form : p.resumableForm = .ok w) :
    c.attempt p = .ok (some ⟨w, w.holder⟩) := by
  unfold attempt Procedure.weave
  simp [weavable.noError, weavable.suspends, weavable.unwoven, weavable.body, form]

/-- Where there is nothing to weave, nothing is done, and nothing fails. -/
theorem attempt_of_idle (noError : c.errorFor? p.id = none) (idle : ¬ c.Weavable p) :
    c.attempt p = .ok none := by
  unfold attempt Procedure.weave
  by_cases suspends : c.isSuspending p.id = true
  · have plain : (p.attrs.woven || !p.hasBody) = true := by
      by_contra plain
      rw [Bool.not_eq_true, Bool.or_eq_false_iff, Bool.not_eq_false'] at plain
      exact idle ⟨noError, plain.2, plain.1, suspends⟩
    simp [noError, suspends, plain]
  · simp [noError, suspends]

/-- What the classification lets through can be woven, if a procedure that has to be woven has a
valid graph and is marked at calls only. -/
theorem disposes_fate (sound : c.Weavable p → p.Sound ∧ p.MarksCalls ∧ p.Fits) :
    c.Disposes p (c.fate p) := by
  cases error : c.errorFor? p.id with
  | some e =>
    rw [fate_eq, attempt_of_error error]
    exact .failed error
  | none =>
    by_cases weavable : c.Weavable p
    · obtain ⟨sound, marks, fits⟩ := sound weavable
      rcases p.resumableForm_cases sound weavable.unwoven fits with
        ⟨-, w, live, cut, form, assembled⟩ | ⟨b, block, site, mem, other, -⟩
      · rw [fate_eq, attempt_of_weavable weavable form]
        exact .woven weavable form assembled.woven assembled.id_eq assembled.describes
      · exact absurd (marks b block site mem) other
    · rw [fate_eq, attempt_of_idle error weavable]
      exact .passed error weavable

end Classification

namespace CallGraph

variable {g : CallGraph} {i : Nat} {p : Procedure}

theorem node_sites_subset : (g.node i p).sites ⊆ g.sites p := by
  have form : (g.node i p).sites =
      if (g.defect? i p).isNone && follows p then g.sites p else [] := rfl
  rw [form]
  split
  · exact List.Subset.refl _
  · exact List.nil_subset _

/-- The classification marks calls only. -/
theorem marksCalls_annotate : (annotate p (g.node i p).sites g.flags).MarksCalls := by
  intro b mem site mark
  obtain ⟨⟨block, n⟩, place, rfl⟩ := List.mem_map.1 mem
  obtain ⟨s, listed, rfl⟩ := List.mem_map.1 mark
  obtain ⟨listed, here⟩ := List.mem_filter.1 listed
  obtain ⟨m, other, k, statement, func, found, stmt, call, rfl⟩ :=
    mem_sites_iff.1 (node_sites_subset listed)
  -- the call is in the block that it is looked for in
  obtain rfl : m = n := eq_of_beq (Bool.and_eq_true_iff.1 here).1
  rw [List.mem_zipIdx_iff_getElem?] at place
  obtain rfl : other = block := Option.some.inj (found.symm.trans place)
  unfold Stmt.callee? at call
  split at call
  · exact ⟨_, _, _, stmt⟩
  · cases call

/-- A procedure of the unit that has to be woven is valid, and marked at calls only. -/
theorem sound_of_weavable (found : g.unit.procedures[i]? = some p)
    (weavable : g.classification.Weavable (g.marked i p)) :
    (g.marked i p).Sound ∧ (g.marked i p).MarksCalls := by
  have noError := weavable.noError
  rw [id_marked] at noError
  have unwoven := weavable.unwoven
  rw [attrs_marked] at unwoven
  obtain ⟨sound, unbroken⟩ := trusted_of_errorFor? found noError
  obtain ⟨-, valid, -⟩ := defect?_eq_none_iff.1 sound
  have body := weavable.body
  rw [marked_eq_annotate unbroken unwoven] at body ⊢
  rw [Procedure.hasBody_annotate] at body
  exact ⟨(Procedure.sound_of_validate valid body).annotate _ _, marksCalls_annotate⟩

end CallGraph

/-! ## The unit -/

/-- Weaving accounts for every procedure of a unit, if the blocks of what is woven have numbers
of 32 bits.  The procedures keep their order and their identities; each of them fails, is woven
or is passed on; and the lists of the result are made of that. -/
theorem CompilationUnit.weave_accounts (unit : CompilationUnit) (external : ExternalResolver)
    (config : AnalysisConfig)
    (fits : ∀ p ∈ (unit.classify external config).2.procedures,
      (unit.classify external config).1.Weavable p → p.Fits) :
    let (c, classified) := unit.classify external config
    let woven := unit.weave external config
    classified.procedures.map Procedure.id = unit.procedures.map Procedure.id ∧
      woven.procedures.map Procedure.id = unit.procedures.map Procedure.id ∧
      ∃ fates, List.Forall₂ c.Disposes classified.procedures fates ∧
        woven.procedures = fates.map Fate.procedure ∧
        woven.holders = fates.filterMap Fate.holder? ∧
        woven.failures = fates.filterMap Fate.failure? := by
  let g : CallGraph := { external, config, unit }
  have disposes : ∀ p ∈ g.annotated.procedures,
      g.classification.Disposes p (g.classification.fate p) := by
    intro p mem
    have fits := fits p mem
    rw [g.procedures_annotated] at mem
    obtain ⟨x, place, rfl⟩ := List.mem_map.1 mem
    refine Classification.disposes_fate fun weavable => ?_
    obtain ⟨sound, marks⟩ :=
      CallGraph.sound_of_weavable (List.mem_zipIdx_iff_getElem?.1 place) weavable
    exact ⟨sound, marks, fits weavable⟩
  have ids : g.annotated.procedures.map Procedure.id = unit.procedures.map Procedure.id := by
    rw [g.procedures_annotated, List.map_map]
    conv_rhs => rw [← List.zipIdx_map_fst 0 unit.procedures, List.map_map]
    exact List.map_congr_left fun x _ => CallGraph.id_marked
  refine ⟨ids, ?_, g.annotated.procedures.map g.classification.fate, ?_, ?_, ?_, ?_⟩
  · have form : (unit.weave external config).procedures = g.outcomes := g.procedures_weave
    rw [form]
    exact CallGraph.map_id_outcomes
  · exact List.forall₂_map_right_iff.2 (List.forall₂_same.2 disposes)
  · rw [List.map_map]
    rfl
  · rw [List.filterMap_map]
    rfl
  · rw [List.filterMap_map]
    rfl

/-- A procedure that suspends, one that does not, and a bridge that forwards nothing. -/
def mixed : CompilationUnit :=
  let bridge := Relay.straight "bridge" [] [] [] (.const .unit)
  { name := "mixed", types := []
    procedures := [Relay.inner, Relay.straight "pure" [] [] [] (.const .unit),
      { bridge with attrs := { bridge.attrs with bridge := true } }] }

theorem weave_accounts_mixed :
    let woven := mixed.weave ExternalMetadata.empty .standard
    woven.procedures.map (fun p => (p.id.name, p.attrs.woven)) =
        [("inner", true), ("pure", false), ("bridge", false)] ∧
      woven.holders.map (fun h => h.procedure.name) = ["inner"] ∧
      woven.failures.map (fun f => f.proc.name) = ["bridge"] ∧
      ∃ fates, List.Forall₂ (mixed.classify ExternalMetadata.empty .standard).1.Disposes
        (mixed.classify ExternalMetadata.empty .standard).2.procedures fates ∧
        woven.procedures = fates.map Fate.procedure := by
  have fits : ∀ p ∈ (mixed.classify ExternalMetadata.empty .standard).2.procedures,
      (mixed.classify ExternalMetadata.empty .standard).1.Weavable p → p.Fits := by
    decide +kernel
  obtain ⟨-, -, fates, disposes, procedures, -⟩ :=
    mixed.weave_accounts ExternalMetadata.empty .standard fits
  exact ⟨by decide +kernel, by decide +kernel, by decide +kernel, fates, disposes, procedures⟩

end Resumable
