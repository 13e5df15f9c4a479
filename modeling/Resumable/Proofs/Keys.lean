import Mathlib.Data.List.Nodup

/-!
# Lists with keys

In a list of items with different keys an item is found by its key, wherever it stands.
-/

namespace Resumable

variable {α β κ : Type} [BEq κ] [LawfulBEq κ] {key : α → κ} {l : List α} {k : κ}

/-- In a list of items with different keys an item is found by its key, wherever it stands. -/
theorem find?_eq_some_iff_of_nodup (nodup : (l.map key).Nodup) {a : α} :
    l.find? (key · == k) = some a ↔ a ∈ l ∧ key a = k := by
  constructor
  · intro found
    exact ⟨List.mem_of_find?_eq_some found, by simpa using List.find?_some found⟩
  · rintro ⟨mem, rfl⟩
    cases found : l.find? (key · == key a) with
    | none => simpa using List.find?_eq_none.1 found a mem
    | some b =>
      have same : key b = key a := by simpa using List.find?_some found
      rw [List.inj_on_of_nodup_map nodup (List.mem_of_find?_eq_some found) mem same]

theorem find?_of_nodup (nodup : (l.map key).Nodup) {a : α} (mem : a ∈ l) :
    l.find? (key · == key a) = some a :=
  (find?_eq_some_iff_of_nodup nodup).2 ⟨mem, rfl⟩

/-- Items that are made of others and keep their keys: the first one with a key is made of the
item with this key. -/
theorem find?_flatMap_of_nodup {made : α → List β} {key' : β → κ} (nodup : (l.map key).Nodup)
    (keeps : ∀ a ∈ l, ∀ b ∈ made a, key' b = key a) :
    (l.flatMap made).find? (key' · == k) = (l.find? (key · == k)).bind fun a => (made a).head? := by
  induction l with
  | nil => rfl
  | cons a rest ih =>
    obtain ⟨new, nodup⟩ := List.nodup_cons.1 nodup
    have keeps' := fun b mem => keeps b (List.mem_cons_of_mem a mem)
    rw [List.flatMap_cons, List.find?_append, ih nodup keeps', List.find?_cons]
    by_cases same : key a = k
    · have none : rest.find? (key · == k) = none := by
        rw [List.find?_eq_none]
        intro b mem
        rw [beq_iff_eq]
        exact fun again => new (List.mem_map.2 ⟨b, mem, again.trans same.symm⟩)
      have first : (made a).find? (key' · == k) = (made a).head? := by
        cases items : made a with
        | nil => rfl
        | cons b more =>
          have kept := keeps a List.mem_cons_self b (items ▸ List.mem_cons_self)
          simp [kept, same]
      rw [none, first]
      simp [same]
    · have absent : (made a).find? (key' · == k) = none := by
        rw [List.find?_eq_none]
        intro b mem
        rw [beq_iff_eq, keeps a List.mem_cons_self b mem]
        exact same
      rw [absent, beq_false_of_ne same]
      rfl

end Resumable
