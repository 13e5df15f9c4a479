import Mathlib.Data.List.Sort
import Mathlib.Data.List.Perm.Subperm
import Resumable.Ascending

/-!
# Ascending lists as sets

What the operations on ascending lists do to the members, and that they keep the
order.  Two ascending lists with the same members are equal, and a proper subset is
shorter.

The key of a member has to tell it from all others.
-/

namespace Resumable.Ascending

variable {α : Type} {key : α → Nat}

/-- The keys go up strictly. -/
abbrev Sorted (key : α → Nat) (set : List α) : Prop := set.Pairwise fun a b => key a < key b

/-! ## Members -/

theorem mem_insert (injective : Function.Injective key) {a x : α} {set : List α} :
    x ∈ insert key a set ↔ x = a ∨ x ∈ set := by
  induction set with
  | nil => simp [insert]
  | cons b rest ih =>
    rw [insert]
    split
    · simp
    · split
      · rename_i same
        obtain rfl := injective same
        simp
      · rw [List.mem_cons, ih, List.mem_cons]
        exact or_left_comm

theorem mem_union (injective : Function.Injective key) {x : α} {set more : List α} :
    x ∈ union key set more ↔ x ∈ set ∨ x ∈ more := by
  unfold union
  induction more generalizing set with
  | nil => simp
  | cons a more ih =>
    rw [List.foldl_cons, ih, mem_insert injective, List.mem_cons]
    exact ⟨fun h => h.elim (fun h => h.elim (fun h => .inr (.inl h)) .inl) (fun h => .inr (.inr h)),
      fun h => h.elim (fun h => .inl (.inr h)) (fun h => h.elim (fun h => .inl (.inl h)) .inr)⟩

theorem mem_ofList (injective : Function.Injective key) {x : α} {items : List α} :
    x ∈ ofList key items ↔ x ∈ items := by
  unfold ofList
  rw [mem_union injective]
  simp

theorem mem_diff [BEq α] [LawfulBEq α] {x : α} {set fewer : List α} :
    x ∈ diff set fewer ↔ x ∈ set ∧ x ∉ fewer := by
  simp [diff]

/-! ## Order -/

theorem sorted_insert {a : α} {set : List α} (sorted : Sorted key set) :
    Sorted key (insert key a set) ∧
      ∀ c : Nat, c < key a → (∀ x ∈ set, c < key x) → ∀ x ∈ insert key a set, c < key x := by
  induction set with
  | nil => simp [insert]
  | cons b rest ih =>
    obtain ⟨above, sorted⟩ := List.pairwise_cons.1 sorted
    obtain ⟨inner, lower⟩ := ih sorted
    rw [insert]
    split
    · rename_i less
      refine ⟨List.pairwise_cons.2 ⟨?_, List.pairwise_cons.2 ⟨above, sorted⟩⟩, ?_⟩
      · rw [List.forall_mem_cons]
        exact ⟨less, fun x mem => less.trans (above x mem)⟩
      · intro c first rest
        rw [List.forall_mem_cons]
        exact ⟨first, rest⟩
    · split
      · exact ⟨List.pairwise_cons.2 ⟨above, sorted⟩, fun c _ all => all⟩
      · refine ⟨List.pairwise_cons.2 ⟨lower _ (by omega) above, inner⟩, ?_⟩
        intro c first all
        rw [List.forall_mem_cons] at all ⊢
        exact ⟨all.1, lower c first all.2⟩

theorem sorted_union {set : List α} (sorted : Sorted key set) (more : List α) :
    Sorted key (union key set more) := by
  unfold union
  induction more generalizing set with
  | nil => exact sorted
  | cons a more ih => exact ih (sorted_insert sorted).1

theorem sorted_ofList (items : List α) : Sorted key (ofList key items) :=
  sorted_union .nil items

theorem sorted_diff [BEq α] {set : List α} (sorted : Sorted key set) (fewer : List α) :
    Sorted key (diff set fewer) :=
  sorted.filter _

/-! ## Sets as lists -/

theorem Sorted.nodup {set : List α} (sorted : Sorted key set) : set.Nodup := by
  refine sorted.imp fun {a b} less same => ?_
  rw [same] at less
  exact Nat.lt_irrefl _ less

/-- A subset has no more members. -/
theorem Sorted.length_le {set more : List α} (sorted : Sorted key set) (sub : set ⊆ more) :
    set.length ≤ more.length :=
  (sorted.nodup.subperm sub).length_le

/-- A subset with as many members is the set itself. -/
theorem Sorted.eq_of_subset {set more : List α} (sorted : Sorted key set)
    (sorted' : Sorted key more) (sub : set ⊆ more) (long : more.length ≤ set.length) :
    set = more := by
  have perm : set.Perm more := (sorted.nodup.subperm sub).perm_of_length_le long
  refine perm.eq_of_pairwise (fun a b _ _ less more => ?_) sorted sorted'
  exact absurd more (Nat.lt_asymm less)

/-! ## Sorted lists -/

theorem sort_eq_insertionSort (items : List α) :
    sort key items = items.insertionSort fun a b => key a ≤ key b := by
  have place_eq : ∀ (a : α) (items : List α),
      place key a items = items.orderedInsert (fun a b => key a ≤ key b) a := by
    intro a items
    induction items with
    | nil => rfl
    | cons b rest ih => rw [place, List.orderedInsert_cons, ih]
  unfold sort
  induction items with
  | nil => rfl
  | cons a rest ih => rw [List.foldr_cons, ih, List.insertionSort_cons, place_eq]

theorem sort_perm (items : List α) : (sort key items).Perm items := by
  rw [sort_eq_insertionSort]
  exact List.perm_insertionSort _ items

theorem mem_sort {a : α} {items : List α} : a ∈ sort key items ↔ a ∈ items :=
  (sort_perm items).mem_iff

theorem pairwise_sort (items : List α) :
    (sort key items).Pairwise fun a b => key a ≤ key b := by
  have : Std.Total fun a b : α => key a ≤ key b := ⟨fun a b => Nat.le_total _ _⟩
  have : IsTrans α fun a b => key a ≤ key b := ⟨fun a b c => Nat.le_trans⟩
  rw [sort_eq_insertionSort]
  exact List.pairwise_insertionSort _ items

/-- Items that stand in order keep it. -/
theorem pair_sublist_sort {a b : α} {items : List α} (le : key a ≤ key b)
    (pair : [a, b].Sublist items) : [a, b].Sublist (sort key items) := by
  rw [sort_eq_insertionSort]
  exact List.pair_sublist_insertionSort le pair

end Resumable.Ascending
