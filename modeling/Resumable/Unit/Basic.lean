import Resumable.Procedure.Basic

/-!
# Compilation units

The procedures and the type hierarchy that are analysed in one batch.
-/

namespace Resumable

/-- A type with its direct supertypes. -/
structure TypeDecl where
  name : String
  superType : Option String
  interfaces : List String
  deriving DecidableEq, Inhabited

namespace TypeDecl

/-- A type without supertypes. -/
def root (name : String) : TypeDecl :=
  { name, superType := none, interfaces := [] }

/-- The type with another supertype, in place of the one it had. -/
def extending (t : TypeDecl) (superType : String) : TypeDecl :=
  { t with superType := some superType }

/-- The type with one more interface. -/
def implementing (t : TypeDecl) (interface : String) : TypeDecl :=
  { t with interfaces := t.interfaces ++ [interface] }

/-- The supertype first, then the interfaces in the order of their declaration. -/
def parents (t : TypeDecl) : List String :=
  t.superType.toList ++ t.interfaces

end TypeDecl

structure CompilationUnit where
  name : String
  types : List TypeDecl
  procedures : List Procedure
  deriving DecidableEq, Inhabited

namespace CompilationUnit

/-- The unit with one more type. -/
def withType (u : CompilationUnit) (t : TypeDecl) : CompilationUnit :=
  { u with types := u.types ++ [t] }

/-- The first declaration of a type. -/
def typeDecl? (u : CompilationUnit) (name : String) : Option TypeDecl :=
  u.types.find? (·.name == name)

/-- The first procedure with an identity. -/
def procedure? (u : CompilationUnit) (id : ProcId) : Option Procedure :=
  u.procedures.find? (·.id == id)

end CompilationUnit

end Resumable
