import Mathlib.Data.Set.Finite.Lattice
import Mathlib.Logic.Relation
import Resumable.Classify.Resolution
import Resumable.Proofs.Search

/-!
# Which types derive from another

The hierarchy of types as the analysis sees it: a type that the unit declares has the
parents of its declaration, and any other type those that the outside gives.  `ParentOf`
is one step up.  Declared types and external ones may derive from each other, along
several ways and in circles.

* `sum_parents_le`: there are finitely many steps, and `searchBound` counts them all.
* `isSubtype_iff`: the search for an ancestor finds it exactly if steps up lead there.

`isSubtype_exact` says this of every table of external types, and that the search ends by
itself.  Declarations of types need different names; of procedures nothing is asked.
-/

namespace Resumable

namespace CallGraph

/-- One step up the hierarchy: as the unit declares it, or as the outside does. -/
def ParentOf (g : CallGraph) (type parent : String) : Prop :=
  (∃ t ∈ g.unit.types, t.name = type ∧ parent ∈ t.parents) ∨
    (∀ t ∈ g.unit.types, t.name ≠ type) ∧ parent ∈ g.external.supertypes type

variable {g : CallGraph}

/-! ## Declarations -/

theorem decl?_eq_some_iff (nodup : (g.unit.types.map TypeDecl.name).Nodup) {name : String}
    {t : TypeDecl} : g.decl? name = some t ↔ t ∈ g.unit.types ∧ t.name = name := by
  unfold decl?
  constructor
  · intro found
    exact ⟨by simpa using List.mem_of_find?_eq_some found,
      by simpa using List.find?_some found⟩
  · rintro ⟨mem, rfl⟩
    cases found : g.unit.types.reverse.find? (·.name == t.name) with
    | none =>
      have := List.find?_eq_none.1 found t (by simpa using mem)
      simp at this
    | some u =>
      have mem' : u ∈ g.unit.types := by simpa using List.mem_of_find?_eq_some found
      have same : u.name = t.name := by simpa using List.find?_some found
      exact congrArg some (List.inj_on_of_nodup_map nodup mem' mem same)

theorem decl?_eq_none_iff {name : String} :
    g.decl? name = none ↔ ∀ t ∈ g.unit.types, t.name ≠ name := by
  unfold decl?
  rw [List.find?_eq_none]
  simp

/-! ## Steps up -/

/-- Entries picked from a list by different keys list no more than the whole list. -/
private theorem sum_picked_le {ε γ : Type} (entries : List ε) (key : ε → String)
    (listed : ε → List γ) (pick : String → Option ε)
    (picked : ∀ k e, pick k = some e → e ∈ entries ∧ key e = k) (keys : Finset String) :
    ∑ k ∈ keys, ((pick k).map fun e => (listed e).length).getD 0 ≤
      (entries.flatMap listed).length := by
  have nodup : (keys.toList.filterMap pick).Nodup := by
    apply List.Nodup.filterMap _ keys.nodup_toList
    intro k k' e here there
    exact (picked k e here).2.symm.trans (picked k' e there).2
  have sub : keys.toList.filterMap pick ⊆ entries := by
    intro e mem
    obtain ⟨k, -, here⟩ := List.mem_filterMap.1 mem
    exact (picked k e here).1
  obtain ⟨l, perm, sublist⟩ := List.subperm_of_subset nodup sub
  have total : ∀ l : List String,
      (l.map fun k => ((pick k).map fun e => (listed e).length).getD 0).sum =
        ((l.filterMap pick).flatMap listed).length := by
    intro l
    induction l with
    | nil => rfl
    | cons k l ih => cases here : pick k <;> simp [here, ih]
  calc ∑ k ∈ keys, ((pick k).map fun e => (listed e).length).getD 0
      = (keys.toList.map fun k => ((pick k).map fun e => (listed e).length).getD 0).sum :=
        (Finset.sum_map_toList keys _).symm
    _ = ((keys.toList.filterMap pick).flatMap listed).length := total keys.toList
    _ = (l.flatMap listed).length := (perm.flatMap_right listed).length_eq.symm
    _ ≤ (entries.flatMap listed).length := (sublist.flatMap listed).length_le

end CallGraph

/-- The edges of a resolver bound what a search through its types can follow. -/
def ExternalResolver.Bounded (e : ExternalResolver) : Prop :=
  ∀ types : Finset String, ∑ t ∈ types, (e.supertypes t).length ≤ e.edges

theorem Catalogue.mem_of_get? {α : Type} {c : Catalogue α} {name : String} {entry : α}
    (h : c.get? name = some entry) : (name, entry) ∈ c.entries := by
  obtain ⟨e, found, rfl⟩ := Option.map_eq_some_iff.1 h
  have same : e.1 = name := by simpa using List.find?_some found
  have mem := List.mem_of_find?_eq_some found
  rw [← same]
  exact mem

/-- A table of external types has no more edges than it lists. -/
theorem ExternalMetadata.resolver_bounded (m : ExternalMetadata) : m.resolver.Bounded := by
  intro types
  have picked : ∀ k e, (m.types.get? k).map (fun t => (k, t)) = some e →
      e ∈ m.types.entries ∧ e.1 = k := by
    intro k e found
    obtain ⟨t, here, rfl⟩ := Option.map_eq_some_iff.1 found
    exact ⟨Catalogue.mem_of_get? here, rfl⟩
  have bound := CallGraph.sum_picked_le m.types.entries Prod.fst
    (fun e => e.2.parents) _ picked types
  refine le_trans (le_of_eq (Finset.sum_congr rfl fun t _ => ?_)) bound
  unfold resolver supertypes
  cases here : m.types.get? t <;> simp [here]

namespace CallGraph

variable {g : CallGraph}

theorem sum_declared_parents_le (types : Finset String) :
    ∑ t ∈ types, ((g.decl? t).map fun d => d.parents.length).getD 0
      ≤ (g.unit.types.flatMap TypeDecl.parents).length := by
  apply sum_picked_le g.unit.types TypeDecl.name
  intro name t found
  exact ⟨by simpa using List.mem_of_find?_eq_some found, by simpa using List.find?_some found⟩

/-! ## The search for an ancestor -/

theorem sum_parents_le (bounded : g.external.Bounded) (types : Finset String) :
    ∑ t ∈ types, (g.parents t).length + 1 ≤ g.searchBound := by
  have split : ∀ t ∈ types, (g.parents t).length
      ≤ ((g.decl? t).map fun d => d.parents.length).getD 0 + (g.external.supertypes t).length := by
    intro t _
    unfold parents
    cases g.decl? t <;> simp
  have total := Finset.sum_le_sum split
  rw [Finset.sum_add_distrib] at total
  have inside := sum_declared_parents_le (g := g) types
  have outside := bounded types
  unfold searchBound
  omega

theorem lookAncestor_children_length (ancestor type : String) :
    (g.lookAncestor ancestor type).children.length ≤ (g.parents type).length := by
  unfold lookAncestor
  split <;> simp

theorem lookAncestor_own {ancestor type : String} :
    (g.lookAncestor ancestor type).own = none ↔ type ≠ ancestor := by
  unfold lookAncestor
  split <;> simp_all

/-- The types with parents are finitely many. -/
theorem finite_parents (bounded : g.external.Bounded) : {t | g.parents t ≠ []}.Finite := by
  by_contra infinite
  obtain ⟨types, sub, card⟩ := Set.Infinite.exists_subset_card_eq infinite g.searchBound
  have one : ∀ t ∈ types, 1 ≤ (g.parents t).length := by
    intro t mem
    exact List.length_pos_iff.2 (sub (Finset.mem_coe.2 mem))
  have many := Finset.sum_le_sum one
  have few := sum_parents_le bounded types
  rw [← Finset.card_eq_sum_ones, card] at many
  omega

/-- What a search for an ancestor may come to. -/
theorem covers_lookAncestor (bounded : g.external.Bounded) (ancestor : String)
    (list : List String) :
    Search.Covers (g.lookAncestor ancestor) (finite_parents bounded).toFinset list := by
  refine .of_all fun x some => ?_
  have longer := lookAncestor_children_length (g := g) ancestor x
  have pos := List.length_pos_iff.2 some
  rw [Set.Finite.mem_toFinset]
  exact List.length_pos_iff.1 (by omega)

theorem lookAncestor_fuel (bounded : g.external.Bounded) (ancestor : String) :
    ∑ x ∈ (finite_parents bounded).toFinset, (g.lookAncestor ancestor x).children.length + 1
      ≤ g.searchBound :=
  (Nat.add_le_add_right (Finset.sum_le_sum fun x _ => lookAncestor_children_length ancestor x)
    1).trans (sum_parents_le bounded _)

/-- The search is not cut off by its bound. -/
theorem isSubtype_ends (bounded : g.external.Bounded) (type ancestor : String) :
    ∃ r, Search.Ends (g.lookAncestor ancestor) [type] [] r ∧
      g.isSubtype type ancestor = r.1.isSome := by
  have fuel := lookAncestor_fuel bounded ancestor
  refine ⟨_, firstFound_ends _ _ _ _ (covers_lookAncestor bounded ancestor [type]) ?_, rfl⟩
  simpa [openEdges] using fuel

section

variable (nodup : (g.unit.types.map TypeDecl.name).Nodup)
include nodup

theorem mem_parents_iff {type parent : String} :
    parent ∈ g.parents type ↔ g.ParentOf type parent := by
  unfold parents ParentOf
  cases found : g.decl? type with
  | some t =>
    obtain ⟨mem, name⟩ := (decl?_eq_some_iff nodup).1 found
    constructor
    · exact fun up => Or.inl ⟨t, mem, name, up⟩
    · rintro (⟨u, mem', name', up⟩ | ⟨undeclared, -⟩)
      · rwa [List.inj_on_of_nodup_map nodup mem mem' (name.trans name'.symm)]
      · exact absurd name (undeclared t mem)
  | none =>
    have undeclared := decl?_eq_none_iff.1 found
    constructor
    · exact fun up => Or.inr ⟨undeclared, up⟩
    · rintro (⟨u, mem, name, -⟩ | ⟨-, up⟩)
      · exact absurd name (undeclared u mem)
      · exact up

/-- A search for an ancestor goes from types to their parents. -/
theorem derives_of_reaches {ancestor type top : String} {avoid : List String}
    (reach : Search.Reaches (g.lookAncestor ancestor) avoid type top) :
    Relation.ReflTransGen g.ParentOf type top := by
  induction reach with
  | here _ => exact .refl
  | @down type parent _ _ child _ ih =>
    have up : parent ∈ g.parents type := by
      unfold lookAncestor at child
      split at child <;> simp_all
    exact .head ((mem_parents_iff nodup).1 up) ih

theorem reaches_of_derives {ancestor type : String}
    (derives : Relation.ReflTransGen g.ParentOf type ancestor) :
    Search.Reaches (g.lookAncestor ancestor) [] type ancestor := by
  induction derives using Relation.ReflTransGen.head_induction_on with
  | refl => exact .here (by simp)
  | @head type parent up _ ih =>
    by_cases same : type = ancestor
    · subst same
      exact .here (by simp)
    · refine .down (by simp) ?_ ih
      simpa [lookAncestor, same] using (mem_parents_iff nodup).2 up

/-- The search for an ancestor finds it exactly if parents lead there. -/
theorem isSubtype_iff (bounded : g.external.Bounded) {type ancestor : String} :
    g.isSubtype type ancestor = true ↔ Relation.ReflTransGen g.ParentOf type ancestor := by
  have silent := firstFound_eq_none_iff (covers_lookAncestor bounded ancestor [type])
    (lookAncestor_fuel bounded ancestor)
  unfold isSubtype
  rw [← not_iff_not, Bool.not_eq_true, Option.isSome_eq_false_iff, Option.isNone_iff_eq_none,
    silent]
  constructor
  · intro quiet derives
    exact (lookAncestor_own.1 (quiet _ (reaches_of_derives nodup derives))) rfl
  · intro apart top reach
    rw [lookAncestor_own]
    rintro rfl
    exact apart (derives_of_reaches nodup reach)

end

/-- Whether a type derives from another is decided for every table of external types: the
search ends by itself, and it finds the ancestor exactly if some steps up, or none, lead
there. -/
theorem isSubtype_exact (unit : CompilationUnit) (metadata : ExternalMetadata)
    (config : AnalysisConfig) (nodup : (unit.types.map TypeDecl.name).Nodup)
    (type ancestor : String) :
    let g : CallGraph := { external := metadata, config, unit }
    (∃ r, Search.Ends (g.lookAncestor ancestor) [type] [] r ∧
        g.isSubtype type ancestor = r.1.isSome) ∧
      (g.isSubtype type ancestor = true ↔ Relation.ReflTransGen g.ParentOf type ancestor) :=
  ⟨isSubtype_ends metadata.resolver_bounded type ancestor,
    isSubtype_iff nodup metadata.resolver_bounded⟩

/-- A unit whose types derive from external ones. -/
def handlers : CompilationUnit :=
  { name := "app"
    types := [(TypeDecl.root "app.Slow").extending "lib.Adapter" |>.implementing "app.Marker",
      (TypeDecl.root "app.Marker").implementing "lib.Handler"]
    procedures := [] }

/-- The adapter closes a circle through the unit. -/
def adapters : ExternalMetadata :=
  ExternalMetadata.empty
    |>.withType "lib.Adapter" ((ExternalType.plain.extending "app.Slow").implementing "lib.Handler")
    |>.withType "lib.Handler" .plain

theorem isSubtype_exact_handlers :
    (handlers.types.map TypeDecl.name).Nodup ∧
      Relation.ReflTransGen (ParentOf ⟨adapters, .standard, handlers⟩) "app.Slow" "lib.Handler" ∧
      ¬ Relation.ReflTransGen (ParentOf ⟨adapters, .standard, handlers⟩)
        "app.Marker" "app.Slow" := by
  have nodup : (handlers.types.map TypeDecl.name).Nodup := by decide
  have exact := isSubtype_exact handlers adapters .standard nodup
  have derives : isSubtype ⟨adapters, .standard, handlers⟩ "app.Slow" "lib.Handler" = true := by
    decide +kernel
  have apart : isSubtype ⟨adapters, .standard, handlers⟩ "app.Marker" "app.Slow" = false := by
    decide +kernel
  refine ⟨nodup, (exact _ _).2.1 derives, fun above => ?_⟩
  have found := (exact _ _).2.2 above
  rw [apart] at found
  cases found

end CallGraph

end Resumable
