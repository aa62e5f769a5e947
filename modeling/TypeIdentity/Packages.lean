import Std.Data.HashMap
import TypeIdentity.Store

/-! # Packages

Packages map local names to declarations.  A lookup fails loudly when the package is unknown or
declares no type of that name; the predeclared `error` needs no package.
-/
namespace TypeIdentity

/-- The declared types of a package, by name. -/
abbrev Package := Std.HashMap String Decl

structure Packages where
  byPath : Std.HashMap String Package := ∅

namespace Packages

def empty : Packages := {}

def size (packages : Packages) : Nat := packages.byPath.size

def isEmpty (packages : Packages) : Bool := packages.size = 0

/-- Makes a package known; one that is known already stays as it is. -/
def add (packages : Packages) (path : String) : Packages :=
  ⟨packages.byPath.insertIfNew path ∅⟩

def find (packages : Packages) (path : String) : Except LookupReason Package :=
  match packages.byPath[path]? with
  | some package => .ok package
  | none => .error (.notLoaded path)

def names (packages : Packages) (path : String) : Except LookupReason (List String) := do
  return (← packages.find path).keys.mergeSort fun a b => !(b < a)

def lookup (packages : Packages) (path name : String) : Except Error Decl :=
  if path = "" ∧ name = "error" then .ok .error
  else match packages.find path with
    | .error reason => .error (.lookup path name reason)
    | .ok package =>
      match package[name]? with
      | some d => .ok d
      | none => .error (.lookup path name .noSuchType)

/-- Declares a type in a package, which becomes known by it; a name can be declared only once. -/
def declare (packages : Packages) (path name : String) (params : List String) (store : Store) :
    Except Error (Decl × Store) × Packages :=
  let packages := packages.add path
  let package := packages.byPath.getD path ∅
  if name ∈ package then (.error (.redefined (path ++ "." ++ name)), packages)
  else
    let (d, store) := store.declare path name params
    (.ok (d, store), ⟨packages.byPath.insert path (package.insert name d)⟩)

end Packages
end TypeIdentity
