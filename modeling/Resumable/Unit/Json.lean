import Resumable.Unit.Basic
import Resumable.Procedure.Json

/-!
# Compilation units as JSON
-/

namespace Resumable

open Json (ofList ofOption list? cells)

def TypeDecl.toJson (t : TypeDecl) : Json :=
  .obj [("name", .str t.name), ("super_type", ofOption .str t.superType),
    ("interfaces", ofList .str t.interfaces)]

def TypeDecl.ofJson? (j : Json) : Option TypeDecl := do
  match ← cells ["name", "super_type", "interfaces"] j with
  | [name, superType, interfaces] =>
    return {
      name := ← name.required Json.string?
      superType := ← superType.optional Json.string?
      interfaces := ← interfaces.orElse (list? Json.string?) [] }
  | _ => none

def CompilationUnit.toJson (u : CompilationUnit) : Json :=
  .obj [("name", .str u.name), ("types", ofList TypeDecl.toJson u.types),
    ("procedures", ofList Procedure.toJson u.procedures)]

def CompilationUnit.ofJson? (j : Json) : Option CompilationUnit := do
  match ← cells ["name", "types", "procedures"] j with
  | [name, types, procedures] =>
    return {
      name := ← name.required Json.string?
      types := ← types.orElse (list? TypeDecl.ofJson?) []
      procedures := ← procedures.required (list? Procedure.ofJson?) }
  | _ => none

end Resumable
