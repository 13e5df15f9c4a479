import Resumable.Proofs.Json.Procedures
import Resumable.Weave.File

/-!
# Files are read back

Units, woven units, metadata and configurations are read back from the text that is written for
them (`files_read_back`).  The types of these files come first, then the text.

A catalogue is written as an object.  Its entries are in ascending order, so the reader, which
puts one entry after the other into an empty catalogue, always adds one at the end.
-/

namespace Resumable

/-! ## Catalogues -/

section Catalogue

variable {α : Type} {entries more : List (String × α)}

/-- An entry whose name is above all others comes last. -/
theorem insertNamed_eq_append {name : String} {entry : α} (above : ∀ e ∈ entries, e.1 < name) :
    insertNamed name entry entries = entries ++ [(name, entry)] := by
  induction entries with
  | nil => rfl
  | cons head rest ih =>
    obtain ⟨first, above⟩ := List.forall_mem_cons.1 above
    have other : name ≠ head.1 := fun same => String.lt_irrefl _ (same ▸ first)
    rw [insertNamed, if_neg (String.lt_asymm first), if_neg other, ih above, List.cons_append]

theorem Catalogue.eq_of_entries {c d : Catalogue α} (same : c.entries = d.entries) : c = d := by
  cases c
  cases d
  congr

/-- Ascending entries are put into a catalogue one behind the other. -/
theorem Catalogue.foldl_insert (c : Catalogue α)
    (ascending : (c.entries ++ more).Pairwise fun a b => a.1 < b.1) :
    (more.foldl (fun c e => c.insert e.1 e.2) c).entries = c.entries ++ more := by
  induction more generalizing c with
  | nil => rw [List.foldl_nil, List.append_nil]
  | cons e more ih =>
    have above : ∀ x ∈ c.entries, x.1 < e.1 := fun x mem =>
      (List.pairwise_append.1 ascending).2.2 x mem e List.mem_cons_self
    have step : (c.insert e.1 e.2).entries = c.entries ++ [e] := insertNamed_eq_append above
    have split : c.entries ++ e :: more = (c.insert e.1 e.2).entries ++ more := by
      rw [step, List.append_assoc]
      rfl
    rw [List.foldl_cons, split, ih]
    rwa [← split]

end Catalogue

namespace Json

variable {α : Type} {write : α → Json} {read : Json → Option α}

/-- A catalogue is read back if its entries are. -/
theorem faithful_catalogue {c : Catalogue α} (all : ∀ e ∈ c.entries, Faithful write read e.2) :
    Faithful (Catalogue.toJson write) (Catalogue.ofJson? read) c := by
  refine ⟨.obj (List.forall_mem_map.2 fun e mem => (all e mem).1), nofun, ?_⟩
  have entries : (c.entries.map fun e => (e.1, write e.2)).mapM
      (fun m => (read m.2).map fun e => (m.1, e)) = some c.entries :=
    mapM_map_eq_some fun e mem => by
      simp only [(all e mem).2.2, Option.map_some]
  rw [Catalogue.toJson, Catalogue.ofJson?, entries, Option.bind_eq_bind, Option.bind_some]
  exact congrArg some (Catalogue.eq_of_entries (Catalogue.foldl_insert .empty c.ascending))

end Json

open Json (Faithful faithful_list faithful_catalogue)

/-! ## Units -/

@[simp]
theorem TypeDecl.faithful (t : TypeDecl) : Faithful toJson ofJson? t := by
  simp -implicitDefEqProofs [Faithful, toJson, ofJson?]

/-- The marks of all procedures have 64 bits. -/
def CompilationUnit.MarksFit (u : CompilationUnit) : Prop := ∀ p ∈ u.procedures, p.MarksFit

theorem CompilationUnit.faithful {u : CompilationUnit} (fit : u.MarksFit) :
    Faithful toJson ofJson? u := by
  have procedures := faithful_list fun p mem => Procedure.faithful (fit p mem)
  simp -implicitDefEqProofs [Faithful, toJson, ofJson?, procedures]

@[simp]
theorem StateHolder.faithful (h : StateHolder) : Faithful toJson ofJson? h := by
  simp -implicitDefEqProofs [Faithful, toJson, ofJson?]

@[simp]
theorem WeaveFailure.faithful (f : WeaveFailure) : Faithful toJson ofJson? f := by
  simp -implicitDefEqProofs [Faithful, toJson, ofJson?]

/-- The marks of all procedures have 64 bits. -/
def WovenUnit.MarksFit (u : WovenUnit) : Prop := ∀ p ∈ u.procedures, p.MarksFit

theorem WovenUnit.faithful {u : WovenUnit} (fit : u.MarksFit) : Faithful toJson ofJson? u := by
  have procedures := faithful_list fun p mem => Procedure.faithful (fit p mem)
  simp -implicitDefEqProofs [Faithful, toJson, ofJson?, procedures]

/-! ## Metadata and configuration -/

@[simp]
theorem AnalysisConfig.faithful (c : AnalysisConfig) : Faithful toJson ofJson? c := by
  simp -implicitDefEqProofs [Faithful, toJson, ofJson?]

@[simp]
theorem ExternalMethod.faithful (m : ExternalMethod) : Faithful toJson ofJson? m := by
  simp -implicitDefEqProofs [Faithful, toJson, ofJson?]

@[simp]
theorem ExternalType.faithful (t : ExternalType) : Faithful toJson ofJson? t := by
  simp -implicitDefEqProofs [Faithful, toJson, ofJson?]

theorem ExternalMetadata.faithful (m : ExternalMetadata) : Faithful toJson ofJson? m := by
  have types := faithful_catalogue fun e (_ : e ∈ m.types.entries) => ExternalType.faithful e.2
  simp -implicitDefEqProofs [Faithful, toJson, ofJson?, types]

/-! ## Texts -/

/-- Where a value is read back from its JSON, it is read back from both layouts of it. -/
theorem Json.Faithful.text {α : Type} {write : α → Json} {read : Json → Option α} {a : α}
    (h : Faithful write read a) :
    (Json.ofText? (write a).pretty).bind read = some a ∧
      (Json.ofText? (write a).compact).bind read = some a := by
  rw [Json.ofText?_pretty h.1, Json.ofText?_compact h.1]
  exact ⟨h.2.2, h.2.2⟩

/-- Everything that is written to a file is read back from it as it was, in the layout of the
files and in the compact one: woven units, units, procedures, metadata and configurations, with any
texts and numbers in them. -/
theorem files_read_back :
    (∀ u : WovenUnit, u.MarksFit →
      WovenUnit.ofText? u.toText = some u ∧ WovenUnit.ofText? u.toJson.compact = some u) ∧
    (∀ u : CompilationUnit, u.MarksFit →
      CompilationUnit.ofText? u.toText = some u ∧
        CompilationUnit.ofText? u.toJson.compact = some u) ∧
    (∀ p : Procedure, p.MarksFit →
      Procedure.ofText? p.toText = some p ∧ Procedure.ofText? p.toJson.compact = some p) ∧
    (∀ m : ExternalMetadata,
      ExternalMetadata.ofText? m.toText = some m ∧
        ExternalMetadata.ofText? m.toJson.compact = some m) ∧
    ∀ c : AnalysisConfig,
      AnalysisConfig.ofText? c.toText = some c ∧
        AnalysisConfig.ofText? c.toJson.compact = some c :=
  ⟨fun _ fit => (WovenUnit.faithful fit).text, fun _ fit => (CompilationUnit.faithful fit).text,
    fun _ fit => (Procedure.faithful fit).text, fun m => m.faithful.text,
    fun c => c.faithful.text⟩

/-- A unit that takes some care: characters that are escaped, one beyond 16 bits, the lowest number
and the highest position, and options that are given and that are not. -/
def intricate : WovenUnit :=
  let proc : ProcId := ⟨"a\"b\\c\n\t", "\x00\x1f\x7f", "é😀"⟩
  { name := ""
    procedures := [{
      id := proc, params := [], retTy := .void
      locals := [⟨⟨0⟩, none, .int, false⟩, ⟨⟨4294967295⟩, some "\x08\x0c\x0d", .any, true⟩]
      blocks := [
        { id := ⟨0⟩, handler := some ⟨⟨1⟩, ⟨0⟩⟩, suspendSites := [0, 18446744073709551615]
          statements := [.call none ⟨proc, .virtual⟩ [.const .unit, .const (.str "/")],
            .assign ⟨0⟩ (.use (.const (.int Int64.minValue)))]
          terminator := .switch (.local ⟨0⟩) [(-1, ⟨0⟩), (0, ⟨1⟩)] ⟨1⟩ },
        { Block.empty ⟨1⟩ with terminator := .ret none }]
      entryBlock := ⟨0⟩, attrs := .plain, states := [⟨⟨0⟩, ⟨0⟩, [⟨⟨0⟩, "l0", .int⟩], [⟨1⟩]⟩] }]
    holders := [⟨"h", proc, []⟩], failures := [⟨proc, "no \"reason\""⟩] }

theorem files_read_back_intricate :
    intricate.MarksFit ∧ WovenUnit.ofText? intricate.toText = some intricate := by
  have fit : intricate.MarksFit := by
    unfold WovenUnit.MarksFit Procedure.MarksFit
    decide
  exact ⟨fit, (files_read_back.1 intricate fit).1⟩

end Resumable
