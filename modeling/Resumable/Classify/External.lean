import Resumable.Procedure.Json
import Resumable.Classify.Catalogue
import Resumable.Search

/-!
# External metadata

What is known about procedures outside the unit: a table of types with their
supertypes and the verdict of each declared method.  A lookup matches the type
itself first and then its supertypes.  A bridge forwards to another method and
answers with that method's verdict, or with its own flag when the target is
found nowhere.

Inheritance and forwarding may run in circles; `ExternalMetadata.find?` visits
every method of every type once at most.

The analysis itself asks an `ExternalResolver`; a table is one of them.
-/

namespace Resumable

/-- Whether a call of a procedure can suspend. -/
inductive Verdict where
  | suspending
  | notSuspending
  deriving DecidableEq, Inhabited

namespace Verdict

def ofFlag (suspends : Bool) : Verdict :=
  if suspends then .suspending else .notSuspending

def isSuspending : Verdict → Bool
  | .suspending => true
  | .notSuspending => false

end Verdict

/-- What the analysis asks about procedures and types outside the unit. -/
structure ExternalResolver where
  /-- The verdict of a procedure, if it is known. -/
  find? : ProcId → Option Verdict
  /-- The direct supertypes of a type, in the order in which they are searched. -/
  supertypes : String → List String
  /-- The number of edges from types to their supertypes that a search may follow. -/
  edges : Nat

structure ExternalMethod where
  name : String
  signature : String
  suspending : Bool
  /-- The single call that a bridge forwards to. -/
  forwardsTo : Option ProcId
  deriving DecidableEq, Inhabited

structure ExternalType where
  superType : Option String
  interfaces : List String
  methods : List ExternalMethod
  deriving DecidableEq, Inhabited

namespace ExternalType

/-- A type without supertypes and methods. -/
def plain : ExternalType := { superType := none, interfaces := [], methods := [] }

def extending (t : ExternalType) (superType : String) : ExternalType :=
  { t with superType := some superType }

def implementing (t : ExternalType) (interface : String) : ExternalType :=
  { t with interfaces := t.interfaces ++ [interface] }

def withMethod (t : ExternalType) (name signature : String) (suspending : Bool) :
    ExternalType :=
  { t with methods := t.methods ++ [{ name, signature, suspending, forwardsTo := none }] }

def withBridge (t : ExternalType) (name signature : String) (target : ProcId) : ExternalType :=
  { t with
    methods := t.methods ++ [{ name, signature, suspending := false, forwardsTo := some target }] }

/-- The supertype first, then the interfaces. -/
def parents (t : ExternalType) : List String := t.superType.toList ++ t.interfaces

/-- The first method with the name and signature of a procedure. -/
def method? (t : ExternalType) (id : ProcId) : Option ExternalMethod :=
  t.methods.find? fun m => m.name == id.name && m.signature == id.signature

end ExternalType

structure ExternalMetadata where
  types : Catalogue ExternalType
  deriving Inhabited

namespace ExternalMetadata

/-- Nothing is known outside the unit. -/
def empty : ExternalMetadata := ⟨.empty⟩

def withType (m : ExternalMetadata) (name : String) (t : ExternalType) : ExternalMetadata :=
  ⟨m.types.insert name t⟩

/-- The direct supertypes of an external type. -/
def supertypes (m : ExternalMetadata) (owner : String) : List String :=
  match m.types.get? owner with
  | some t => t.parents
  | none => []

/-- A declared method answers with its flag, after the method that it forwards
to; a type that does not declare the method passes the search on to its parents. -/
def look (m : ExternalMetadata) (id : ProcId) : Search ProcId Verdict :=
  match m.types.get? id.owner with
  | none => { children := [], own := none }
  | some t =>
    match t.method? id with
    | some method =>
      { children := method.forwardsTo.toList, own := some (.ofFlag method.suspending) }
    | none => { children := t.parents.map fun parent => { id with owner := parent }, own := none }

/-- A bound on the steps of a search: every edge, once for the method that is
asked for and once for each target of a bridge. -/
def searchBound (m : ExternalMetadata) : Nat :=
  let edges := m.types.entries.length + (m.types.entries.flatMap fun e => e.2.parents).length
  let bridges := (m.types.entries.flatMap fun e =>
    e.2.methods.filter fun method => method.forwardsTo.isSome).length
  (1 + bridges) * edges + 2

/-- The verdict of a procedure, if some type declares it. -/
def find? (m : ExternalMetadata) (id : ProcId) : Option Verdict :=
  (firstFound m.look m.searchBound [id] []).1

/-- The table as what the analysis asks. -/
def resolver (m : ExternalMetadata) : ExternalResolver :=
  { find? := m.find?
    supertypes := m.supertypes
    edges := (m.types.entries.flatMap fun e => e.2.parents).length }

instance : Coe ExternalMetadata ExternalResolver := ⟨resolver⟩

end ExternalMetadata

/-! ## As JSON -/

open Json (ofList ofOption list? nullable? cells)

def ExternalMethod.toJson (m : ExternalMethod) : Json :=
  .obj [("name", .str m.name), ("signature", .str m.signature),
    ("suspending", .bool m.suspending), ("forwards_to", ofOption ProcId.toJson m.forwardsTo)]

def ExternalMethod.ofJson? (j : Json) : Option ExternalMethod := do
  match ← cells ["name", "signature", "suspending", "forwards_to"] j with
  | [name, signature, suspending, forwardsTo] =>
    return {
      name := ← name.required Json.string?
      signature := ← signature.required Json.string?
      suspending := ← suspending.required Json.bool?
      forwardsTo := ← forwardsTo.orElse (nullable? ProcId.ofJson?) none }
  | _ => none

def ExternalType.toJson (t : ExternalType) : Json :=
  .obj [("super_type", ofOption .str t.superType), ("interfaces", ofList .str t.interfaces),
    ("methods", ofList ExternalMethod.toJson t.methods)]

def ExternalType.ofJson? (j : Json) : Option ExternalType := do
  match ← cells ["super_type", "interfaces", "methods"] j with
  | [superType, interfaces, methods] =>
    return {
      superType := ← superType.orElse (nullable? Json.string?) none
      interfaces := ← interfaces.orElse (list? Json.string?) []
      methods := ← methods.orElse (list? ExternalMethod.ofJson?) [] }
  | _ => none

def ExternalMetadata.toJson (m : ExternalMetadata) : Json :=
  .obj [("types", m.types.toJson ExternalType.toJson)]

def ExternalMetadata.ofJson? (j : Json) : Option ExternalMetadata := do
  match ← cells ["types"] j with
  | [types] => return { types := ← types.required (Catalogue.ofJson? ExternalType.ofJson?) }
  | _ => none

end Resumable
