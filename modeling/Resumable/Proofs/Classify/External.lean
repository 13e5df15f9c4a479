import Mathlib.Data.Finset.Prod
import Resumable.Proofs.Acyclic
import Resumable.Proofs.Classify.Resolution

/-!
# What an external table answers

A lookup in a table of external types follows supertypes, interfaces and the targets
of bridges, and visits no method of a type twice.

* `Asks` are the edges of this search.
* `covers` and `find?_fuel`: from one method a search comes to finitely many others,
  and `searchBound` counts all their edges.  The name and the signature that it looks
  for change only at a bridge.
* `unmarked` is the plain recursion, which remembers nothing.

`find?_exact` puts the results together: a lookup ends in every table, it answers
with the flag of a declared method, and without circles its answer is that of the
plain recursion.
-/

namespace Resumable.ExternalMetadata

/-! ## The edges of a search -/

/-- A method that a lookup asks next: the target of the bridge that was found, or
the same method of a parent where a type does not declare it. -/
inductive Asks (m : ExternalMetadata) : ProcId → ProcId → Prop
  | forwards {id target : ProcId} {t : ExternalType} {method : ExternalMethod}
      (declared : m.types.get? id.owner = some t) (own : t.method? id = some method)
      (bridge : method.forwardsTo = some target) : Asks m id target
  | inherits {id : ProcId} {t : ExternalType} {parent : String}
      (declared : m.types.get? id.owner = some t) (lacks : t.method? id = none)
      (mem : parent ∈ t.parents) : Asks m id { id with owner := parent }

variable {m : ExternalMetadata} {id : ProcId}

theorem look_undeclared (undeclared : m.types.get? id.owner = none) :
    m.look id = { children := [], own := none } := by
  simp [look, undeclared]

theorem look_declared {t : ExternalType} {method : ExternalMethod}
    (declared : m.types.get? id.owner = some t) (own : t.method? id = some method) :
    m.look id = { children := method.forwardsTo.toList,
                  own := some (.ofFlag method.suspending) } := by
  simp [look, declared, own]

theorem look_inherited {t : ExternalType} (declared : m.types.get? id.owner = some t)
    (lacks : t.method? id = none) :
    m.look id = { children := t.parents.map fun parent => { id with owner := parent },
                  own := none } := by
  simp [look, declared, lacks]

theorem mem_look_children {c : ProcId} : c ∈ (m.look id).children ↔ m.Asks id c := by
  constructor
  · intro mem
    cases declared : m.types.get? id.owner with
    | none => simp [look_undeclared declared] at mem
    | some t =>
      cases own : t.method? id with
      | none =>
        rw [look_inherited declared own] at mem
        obtain ⟨parent, above, rfl⟩ := List.mem_map.1 mem
        exact .inherits declared own above
      | some method =>
        rw [look_declared declared own] at mem
        exact .forwards declared own (Option.mem_toList.1 mem)
  · intro asks
    cases asks with
    | forwards declared own bridge =>
      rw [look_declared declared own]
      exact Option.mem_toList.2 bridge
    | inherits declared lacks above =>
      rw [look_inherited declared lacks]
      exact List.mem_map_of_mem above

theorem child_look : Search.Child m.look = m.Asks := by
  funext id c
  exact propext mem_look_children

/-- A node of the search that answers is a declared method. -/
theorem look_own {v : Verdict} (h : (m.look id).own = some v) :
    ∃ t method, m.types.get? id.owner = some t ∧ t.method? id = some method ∧
      v = .ofFlag method.suspending := by
  cases declared : m.types.get? id.owner with
  | none => simp [look_undeclared declared] at h
  | some t =>
    cases own : t.method? id with
    | none => simp [look_inherited declared own] at h
    | some method =>
      rw [look_declared declared own] at h
      exact ⟨t, method, rfl, own, (Option.some.inj h).symm⟩

/-! ## The part of a table that is searched -/

/-- The bridges of a table, with their targets. -/
def targets (m : ExternalMetadata) : List ProcId :=
  m.types.entries.flatMap fun e => e.2.methods.filterMap ExternalMethod.forwardsTo

theorem mem_targets {t : ExternalType} {method : ExternalMethod} {target : ProcId}
    (declared : m.types.get? id.owner = some t) (own : t.method? id = some method)
    (bridge : method.forwardsTo = some target) : target ∈ m.targets :=
  List.mem_flatMap.2 ⟨_, Catalogue.mem_of_get? declared,
    List.mem_filterMap.2 ⟨method, List.mem_of_find?_eq_some own, bridge⟩⟩

/-- What a search from a method may look for: the method itself, and the targets of
all bridges. -/
def sought (m : ExternalMetadata) (id : ProcId) : Finset (String × String) :=
  ((id :: m.targets).map fun q => (q.name, q.signature)).toFinset

def owners (m : ExternalMetadata) : Finset String := (m.types.entries.map Prod.fst).toFinset

/-- The methods with children that a search from a method may come to. -/
def region (m : ExternalMetadata) (id : ProcId) : Finset ProcId :=
  (m.owners ×ˢ m.sought id).image fun q => ⟨q.1, q.2.1, q.2.2⟩

theorem mem_region {c : ProcId} :
    c ∈ m.region id ↔ c.owner ∈ m.owners ∧ (c.name, c.signature) ∈ m.sought id := by
  unfold region
  constructor
  · intro mem
    obtain ⟨q, inside, rfl⟩ := Finset.mem_image.1 mem
    exact Finset.mem_product.1 inside
  · rintro ⟨owner, sought⟩
    exact Finset.mem_image.2
      ⟨(c.owner, c.name, c.signature), Finset.mem_product.2 ⟨owner, sought⟩, rfl⟩

theorem mem_owners {owner : String} {t : ExternalType} (declared : m.types.get? owner = some t) :
    owner ∈ m.owners :=
  List.mem_toFinset.2 (List.mem_map.2 ⟨_, Catalogue.mem_of_get? declared, rfl⟩)

theorem Asks.owner_mem {c : ProcId} (asks : m.Asks id c) : id.owner ∈ m.owners := by
  cases asks with
  | forwards declared _ _ => exact mem_owners declared
  | inherits declared _ _ => exact mem_owners declared

/-- What is looked for stays among what is sought. -/
theorem Asks.sought {start c : ProcId} (asks : m.Asks id c)
    (inside : (id.name, id.signature) ∈ m.sought start) :
    (c.name, c.signature) ∈ m.sought start := by
  cases asks with
  | forwards declared own bridge =>
    unfold ExternalMetadata.sought
    rw [List.mem_toFinset]
    exact List.mem_map_of_mem (List.mem_cons_of_mem _ (mem_targets declared own bridge))
  | inherits _ _ _ => exact inside

theorem covers (m : ExternalMetadata) (id : ProcId) :
    Search.Covers m.look (m.region id) [id] := by
  have start : (id.name, id.signature) ∈ m.sought id := by simp [sought]
  have owner : ∀ x, (m.look x).children ≠ [] → x.owner ∈ m.owners := by
    intro x some
    obtain ⟨c, child⟩ := List.exists_mem_of_ne_nil _ some
    exact (mem_look_children.1 child).owner_mem
  refine ⟨fun x mem some => ?_, fun x mem c child some => ?_⟩
  · rw [List.mem_singleton] at mem
    subst mem
    exact mem_region.2 ⟨owner x some, start⟩
  · exact mem_region.2 ⟨owner c some,
      (mem_look_children.1 child).sought (mem_region.1 mem).2⟩

/-! ## Fuel -/

theorem look_children_length (m : ExternalMetadata) (id : ProcId) :
    (m.look id).children.length ≤ 1 + (m.supertypes id.owner).length := by
  cases declared : m.types.get? id.owner with
  | none => simp [look_undeclared declared]
  | some t =>
    cases own : t.method? id with
    | none => simp [look_inherited declared own, supertypes, declared]
    | some method => cases bridge : method.forwardsTo <;> simp [look_declared declared own, bridge]

theorem sought_card_le (m : ExternalMetadata) (id : ProcId) :
    (m.sought id).card ≤ 1 + (m.types.entries.flatMap fun e =>
      e.2.methods.filter fun method => method.forwardsTo.isSome).length := by
  have bridges : ∀ methods : List ExternalMethod,
      (methods.filterMap ExternalMethod.forwardsTo).length
        = (methods.filter fun method => method.forwardsTo.isSome).length := by
    intro methods
    induction methods with
    | nil => rfl
    | cons method methods ih => cases bridge : method.forwardsTo <;> simp [bridge, ih]
  refine (List.toFinset_card_le _).trans ?_
  simp [targets, List.length_flatMap, bridges, Nat.add_comm]

/-- The bound of a search counts every edge that it may follow. -/
theorem find?_fuel (m : ExternalMetadata) (id : ProcId) :
    ∑ x ∈ m.region id, (m.look x).children.length + 1 ≤ m.searchBound := by
  let edges := m.types.entries.length + (m.types.entries.flatMap fun e => e.2.parents).length
  have owners : m.owners.card ≤ m.types.entries.length := by
    simpa [ExternalMetadata.owners] using List.toFinset_card_le (m.types.entries.map Prod.fst)
  have ofOwners : ∑ owner ∈ m.owners, (1 + (m.supertypes owner).length) ≤ edges := by
    rw [Finset.sum_add_distrib, ← Finset.card_eq_sum_ones]
    exact Nat.add_le_add owners (m.resolver_bounded m.owners)
  calc ∑ x ∈ m.region id, (m.look x).children.length + 1
      ≤ ∑ x ∈ m.region id, (1 + (m.supertypes x.owner).length) + 1 :=
        Nat.add_le_add_right (Finset.sum_le_sum fun x _ => look_children_length m x) 1
    _ ≤ ∑ q ∈ m.owners ×ˢ m.sought id, (1 + (m.supertypes q.1).length) + 1 := by
        refine Nat.add_le_add_right ?_ 1
        unfold region
        rw [Finset.sum_image]
        rintro ⟨owner, name, signature⟩ _ ⟨owner', name', signature'⟩ _ same
        cases same
        rfl
    _ = (m.sought id).card * ∑ owner ∈ m.owners, (1 + (m.supertypes owner).length) + 1 := by
        rw [Finset.sum_product_right]
        simp
    _ ≤ m.searchBound := by
        have both := Nat.mul_le_mul (sought_card_le m id) ofOwners
        exact (Nat.add_le_add_right both 1).trans (Nat.le_succ _)

/-! ## The plain recursion -/

/-- A lookup that remembers nothing, to a depth; nothing if it comes deeper.  The
first matching method of the type itself comes first, then what the parents find, in
order.  A bridge answers with what its target finds, and else with its own flag. -/
def unmarked (m : ExternalMetadata) : Nat → ProcId → Option (Option Verdict)
  | 0, _ => none
  | depth + 1, id =>
    match m.types.get? id.owner with
    | none => some none
    | some t =>
      match t.method? id with
      | some method =>
        match method.forwardsTo with
        | some target =>
          (m.unmarked depth target).map fun found => found.or (some (.ofFlag method.suspending))
        | none => some (some (.ofFlag method.suspending))
      | none => t.parents.findSomeM? fun parent => m.unmarked depth { id with owner := parent }

theorem findSomeM?_map {α β γ : Type} (f : β → Option (Option γ)) (g : α → β) (l : List α) :
    (l.map g).findSomeM? f = l.findSomeM? fun x => f (g x) := by
  induction l with
  | nil => rfl
  | cons x l ih => rw [List.map_cons, List.findSomeM?, List.findSomeM?, ih]

theorem unmarked_eq (m : ExternalMetadata) (depth : Nat) (id : ProcId) :
    m.unmarked depth id = Search.unmarked m.look depth id := by
  induction depth generalizing id with
  | zero => rfl
  | succ depth ih =>
    rw [unmarked, Search.unmarked]
    cases declared : m.types.get? id.owner with
    | none => simp [look_undeclared declared]
    | some t =>
      cases own : t.method? id with
      | none =>
        simp only [own, look_inherited declared own, findSomeM?_map, ih]
        simp
      | some method =>
        rw [look_declared declared own]
        cases bridge : method.forwardsTo with
        | none => simp [own, bridge]
        | some target =>
          simp only [own, bridge, ih, Option.toList_some, List.findSomeM?]
          cases Search.unmarked m.look depth target with
          | none => rfl
          | some found => cases found <;> rfl

/-! ## Lookups -/

theorem acyclic_look : Search.Acyclic m.look id ↔
    ∀ a, Relation.ReflTransGen m.Asks id a → ¬ Relation.TransGen m.Asks a a := by
  unfold Search.Acyclic
  rw [child_look]

/-- A table has no circles if all parents of a type and all targets of its bridges
stand lower than the type. -/
theorem acyclic_of_lower (height : String → Nat)
    (lower : ∀ e ∈ m.types.entries, (∀ parent ∈ e.2.parents, height parent < height e.1) ∧
      ∀ method ∈ e.2.methods, ∀ target ∈ method.forwardsTo, height target.owner < height e.1)
    (a : ProcId) : ¬ Relation.TransGen m.Asks a a := by
  have step : ∀ {x y : ProcId}, m.Asks x y → height y.owner < height x.owner := by
    intro x y asks
    cases asks with
    | forwards declared own bridge =>
      exact (lower _ (Catalogue.mem_of_get? declared)).2 _ (List.mem_of_find?_eq_some own) _ bridge
    | inherits declared _ above => exact (lower _ (Catalogue.mem_of_get? declared)).1 _ above
  have way : ∀ c, Relation.TransGen m.Asks a c → height c.owner < height a.owner := by
    intro c way
    induction way with
    | single asks => exact step asks
    | tail _ asks ih => exact (step asks).trans ih
  exact fun circle => Nat.lt_irrefl _ (way a circle)

/-- A lookup ends by itself in every table, whatever circles the types and bridges
run in.  It answers only with the flag of a declared method to which the search
leads.  Where no circle can be reached, the plain recursion ends as well and gives
the same answer. -/
theorem find?_exact (m : ExternalMetadata) (id : ProcId) :
    (∃ visited, Search.Ends m.look [id] [] (m.find? id, visited)) ∧
      (∀ v, m.find? id = some v → ∃ declarer t method,
        Relation.ReflTransGen m.Asks id declarer ∧ m.types.get? declarer.owner = some t ∧
          t.method? declarer = some method ∧ v = .ofFlag method.suspending) ∧
      ((∀ a, Relation.ReflTransGen m.Asks id a → ¬ Relation.TransGen m.Asks a a) →
        ∃ enough, ∀ depth ≥ enough, m.unmarked depth id = some (m.find? id)) := by
  have covers := covers m id
  have fuel := find?_fuel m id
  refine ⟨⟨_, firstFound_ends (m.region id) _ _ _ covers ?_⟩, ?_, ?_⟩
  · simpa [openEdges] using fuel
  · intro v found
    obtain ⟨declarer, reach, own⟩ :=
      ((firstFound_eq_some_iff covers fuel).1 found).exists_own
    obtain ⟨t, method, declared, method?, flag⟩ := look_own own
    exact ⟨declarer, t, method, child_look ▸ reach, declared, method?, flag⟩
  · intro acyclic
    refine ⟨(m.region id).card + 1, fun depth deep => ?_⟩
    rw [unmarked_eq]
    exact unmarked_eq_firstFound (acyclic_look.2 acyclic) covers fuel deep

/-- Two ways lead to the top of a diamond, which does not declare the method.  The
second of them is a bridge. -/
def diamond : ExternalMetadata :=
  empty
    |>.withType "Bottom" ((ExternalType.plain.extending "Left").implementing "Right")
    |>.withType "Left" (ExternalType.plain.extending "Top")
    |>.withType "Right" { ExternalType.plain with
      methods := [{ name := "run", signature := "()", suspending := true,
                    forwardsTo := some ⟨"Top", "run", "()"⟩ }] }
    |>.withType "Top" .plain

/-- How far a type is below the top. -/
def diamondHeight : String → Nat
  | "Bottom" => 2
  | "Left" => 1
  | "Right" => 1
  | _ => 0

theorem find?_exact_diamond :
    (∀ a, Relation.ReflTransGen diamond.Asks ⟨"Bottom", "run", "()"⟩ a →
        ¬ Relation.TransGen diamond.Asks a a) ∧
      diamond.find? ⟨"Bottom", "run", "()"⟩ = some .suspending ∧
      ∃ enough, ∀ depth ≥ enough,
        diamond.unmarked depth ⟨"Bottom", "run", "()"⟩ = some (some .suspending) := by
  have acyclic : ∀ a, Relation.ReflTransGen diamond.Asks ⟨"Bottom", "run", "()"⟩ a →
      ¬ Relation.TransGen diamond.Asks a a :=
    fun a _ => acyclic_of_lower diamondHeight (by decide +kernel) a
  have found : diamond.find? ⟨"Bottom", "run", "()"⟩ = some .suspending := by decide +kernel
  exact ⟨acyclic, found, found ▸ (find?_exact diamond ⟨"Bottom", "run", "()"⟩).2.2 acyclic⟩

end Resumable.ExternalMetadata
