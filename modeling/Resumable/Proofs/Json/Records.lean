import Resumable.Proofs.Json.Text
import Resumable.Proofs.Keys
import Resumable.Procedure.Json

/-!
# Values that are read back

A value of some type is read back if it is written as plain JSON and its reader gives it again
from there (`Faithful`).  This module shows how the parts of the format keep that: numbers, lists,
options, names of variants and the fields of a record.

The lemmas are for the simplifier.  For a record or a variant it unfolds what is written and what
is read and is left with the fields, so a type of the format takes one line, where the types of
its fields come first.
-/

namespace Resumable.Json

variable {α β : Type} {write : α → Json} {read : Json → Option α}

/-- A value is read back from what is written for it, and that is not `null`. -/
abbrev Faithful (write : α → Json) (read : Json → Option α) (a : α) : Prop :=
  (write a).Plain ∧ write a ≠ .null ∧ read (write a) = some a

/-! ## Plain values -/

attribute [simp] Plain.null Plain.bool Plain.int Plain.str

@[simp]
theorem plain_arr {items : List Json} : (Json.arr items).Plain ↔ ∀ j ∈ items, j.Plain :=
  ⟨fun | .arr all => all, .arr⟩

@[simp]
theorem plain_obj {members : List (String × Json)} :
    (Json.obj members).Plain ↔ ∀ m ∈ members, m.2.Plain :=
  ⟨fun | .obj all => all, .obj⟩

@[simp]
theorem plain_ofNat (n : Nat) : (ofNat n).Plain := .int n

@[simp]
theorem ofNat_ne_null (n : Nat) : ofNat n ≠ .null := nofun

@[simp]
theorem plain_ofList {items : List α} (all : ∀ a ∈ items, (write a).Plain) :
    (ofList write items).Plain :=
  .arr (List.forall_mem_map.2 all)

@[simp]
theorem plain_ofOption {o : Option α} (all : ∀ a ∈ o, (write a).Plain) :
    (ofOption write o).Plain := by
  cases o with
  | none => exact .null
  | some a => exact all a rfl

/-! ## Scalars -/

@[simp]
theorem string?_str (s : String) : string? (.str s) = some s := rfl

@[simp]
theorem bool?_bool (b : Bool) : bool? (.bool b) = some b := rfl

@[simp]
theorem int64?_toInt (n : Int64) : int64? (.int n.toInt) = some n := by
  have low := n.minValue_le_toInt
  have high := n.toInt_le
  rw [int64?, if_pos ⟨low, high⟩, Int64.ofInt_toInt]

theorem natBelow?_ofNat {limit n : Nat} (lt : n < limit) : natBelow? limit (ofNat n) = some n := by
  rw [ofNat, natBelow?, if_pos ⟨Int.natCast_nonneg n, Int.ofNat_lt.2 lt⟩, Int.toNat_natCast]

@[simp]
theorem word32?_ofNat (w : UInt32) : word32? (ofNat w.toNat) = some w := by
  rw [word32?, natBelow?_ofNat w.toNat_lt_size, Option.map_some, UInt32.ofNat_toNat]

theorem faithful_size {n : Nat} (lt : n < UInt64.size) : Faithful ofNat size? n :=
  ⟨plain_ofNat n, ofNat_ne_null n, natBelow?_ofNat lt⟩

/-! ## Lists, options, pairs, variants -/

@[simp]
theorem list?_ofList {items : List α} (all : ∀ a ∈ items, read (write a) = some a) :
    list? read (ofList write items) = some items :=
  mapM_map_eq_some all

theorem faithful_list {items : List α} (all : ∀ a ∈ items, Faithful write read a) :
    Faithful (ofList write) (list? read) items :=
  ⟨plain_ofList fun a mem => (all a mem).1, nofun, list?_ofList fun a mem => (all a mem).2.2⟩

@[simp]
theorem nullable?_ofOption {o : Option α}
    (all : ∀ a ∈ o, write a ≠ .null ∧ read (write a) = some a) :
    nullable? read (ofOption write o) = some o := by
  cases o with
  | none => rfl
  | some a =>
    obtain ⟨other, here⟩ := all a rfl
    rw [ofOption, nullable?]
    · rw [here]
      rfl
    · exact other

@[simp]
theorem pair?_arr (first : Json → Option α) (second : Json → Option β) (a b : Json) :
    pair? first second (.arr [a, b]) = (do return (← first a, ← second b)) :=
  rfl

@[simp]
theorem variant?_str (name : String) : variant? (.str name) = some (name, none) := rfl

@[simp]
theorem variant?_obj (name : String) (content : Json) :
    variant? (.obj [(name, content)]) = some (name, some content) := rfl

@[simp]
theorem isBare_none : isBare none = true := rfl

/-- A variant without fields is read back from its name, if different variants have different
names. -/
theorem faithful_bare {values : List α} {name : α → String} (nodup : (values.map name).Nodup)
    {a : α} (mem : a ∈ values) :
    Faithful (fun a => .str (name a)) (bareVariant? (values.map fun a => (name a, a))) a := by
  have names : (values.map fun a => (name a, a)).map Prod.fst = values.map name := by
    rw [List.map_map]
    rfl
  have found := find?_of_nodup (names ▸ nodup) (List.mem_map_of_mem (f := fun a => (name a, a)) mem)
  have form : bareVariant? (values.map fun a => (name a, a)) (.str (name a)) =
      ((values.map fun a => (name a, a)).find? (·.1 == name a)).map Prod.snd := rfl
  refine ⟨.str _, nofun, ?_⟩
  rw [form, found]
  rfl

/-! ## Fields -/

/-- The cells of an object that has the fields of a record. -/
@[simp]
theorem cells_obj {names : List String} {members : List (String × Json)}
    (same : members.map Prod.fst = names) (nodup : names.Nodup) :
    cells names (.obj members) = some (members.map fun m => .given m.2) := by
  subst same
  have once : namedOnce members (members.map Prod.fst) = true := by
    rw [namedOnce, List.all_eq_true]
    intro name _
    have count := List.nodup_iff_count_le_one.1 nodup name
    rw [List.count, List.countP_map, List.countP_eq_length_filter] at count
    exact decide_eq_true count
  have given : (members.map Prod.fst).map (memberCell members) =
      members.map fun m => .given m.2 := by
    rw [List.map_map]
    refine List.map_congr_left fun m mem => ?_
    rw [Function.comp_apply, memberCell, find?_of_nodup nodup mem]
  rw [cells, if_pos once, given]

@[simp]
theorem required_given (j : Json) : Cell.required read (.given j) = read j := rfl

@[simp]
theorem optional_given (j : Json) : Cell.optional read (.given j) = nullable? read j := rfl

@[simp]
theorem orElse_given (default : α) (j : Json) : Cell.orElse read default (.given j) = read j := rfl

end Resumable.Json
