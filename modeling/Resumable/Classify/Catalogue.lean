import Resumable.Json.Basic

/-!
# Catalogues

A finite table from names to entries, kept in ascending order of the names.
Each name occurs once, so two catalogues with the same entries are equal.
-/

namespace Resumable

/-- Puts an entry into a list in ascending order, in place of the one that had
its name. -/
def insertNamed {α : Type} (name : String) (entry : α) :
    List (String × α) → List (String × α)
  | [] => [(name, entry)]
  | head :: rest =>
    if name < head.1 then (name, entry) :: head :: rest
    else if name = head.1 then (name, entry) :: rest
    else head :: insertNamed name entry rest

theorem mem_insertNamed {α : Type} {name : String} {entry : α} {x : String × α} :
    ∀ {entries : List (String × α)}, x ∈ insertNamed name entry entries →
      x = (name, entry) ∨ x ∈ entries := by
  intro entries
  induction entries with
  | nil => simp [insertNamed]
  | cons head rest ih =>
    rw [insertNamed]
    split
    · simp
    · split
      · intro h
        rcases List.mem_cons.1 h with h | h
        · exact Or.inl h
        · exact Or.inr (List.mem_cons_of_mem _ h)
      · intro h
        rcases List.mem_cons.1 h with h | h
        · exact Or.inr (by simp [h])
        · rcases ih h with h | h
          · exact Or.inl h
          · exact Or.inr (List.mem_cons_of_mem _ h)

theorem insertNamed_pairwise {α : Type} (name : String) (entry : α) :
    ∀ {entries : List (String × α)}, entries.Pairwise (fun a b => a.1 < b.1) →
      (insertNamed name entry entries).Pairwise (fun a b => a.1 < b.1) := by
  intro entries
  induction entries with
  | nil => simp [insertNamed]
  | cons head rest ih =>
    intro sorted
    obtain ⟨above, below⟩ := List.pairwise_cons.1 sorted
    rw [insertNamed]
    split
    · rename_i lt
      refine List.pairwise_cons.2 ⟨?_, sorted⟩
      intro x hx
      rcases List.mem_cons.1 hx with rfl | hx
      · exact lt
      · exact String.lt_trans lt (above x hx)
    · split
      · rename_i eq
        refine List.pairwise_cons.2 ⟨?_, below⟩
        intro x hx
        rw [eq]
        exact above x hx
      · rename_i notLt notEq
        refine List.pairwise_cons.2 ⟨?_, ih below⟩
        intro x hx
        rcases mem_insertNamed hx with rfl | hx
        · exact Std.lt_of_le_of_ne (String.not_lt.1 notLt) (Ne.symm notEq)
        · exact above x hx

/-- Entries by name. -/
structure Catalogue (α : Type) where
  entries : List (String × α)
  ascending : entries.Pairwise (fun a b => a.1 < b.1)

namespace Catalogue

variable {α : Type}

def empty : Catalogue α := ⟨[], List.Pairwise.nil⟩

instance : Inhabited (Catalogue α) := ⟨empty⟩

/-- The catalogue with an entry, in place of the one that had its name. -/
def insert (c : Catalogue α) (name : String) (entry : α) : Catalogue α :=
  ⟨insertNamed name entry c.entries, insertNamed_pairwise name entry c.ascending⟩

def get? (c : Catalogue α) (name : String) : Option α :=
  (c.entries.find? (·.1 == name)).map Prod.snd

def toJson (write : α → Json) (c : Catalogue α) : Json :=
  .obj (c.entries.map fun e => (e.1, write e.2))

/-- Of two members with one name the last one counts. -/
def ofJson? (read : Json → Option α) : Json → Option (Catalogue α)
  | .obj members => do
    let entries ← members.mapM fun m => (read m.2).map fun e => (m.1, e)
    return entries.foldl (fun c e => c.insert e.1 e.2) empty
  | _ => none

end Catalogue

end Resumable
