import TypeIdentity.Literal.Basic
import TypeIdentity.Packages

/-! # Static types of literals

A literal is rebuilt as a static type by looking up every named type in it and checking that it has
the right number of arguments.
-/
namespace TypeIdentity

/-- A reference to a declaration with the given arguments, none if it is not generic. -/
def Decl.apply (d : Decl) (args : List StaticType) : Except Error StaticType :=
  if d.isGeneric then StaticType.instantiate d args
  else if args = [] then .ok (.named d [])
  else .error (.arity d.qualifiedName 0 args.length)

namespace Packages

/-- The static type of a literal; names are looked up before their arguments are rebuilt. -/
def resolve (packages : Packages) : TypeLiteral → Except Error StaticType
  | .shape s => do return .shape (← s.attach.traverse fun c => packages.resolve c.1)
  | .named path name args => do
    let d ← packages.lookup path name
    d.apply (← args.attach.mapM fun c => packages.resolve c.1)
termination_by t => sizeOf t
decreasing_by
  · have := Shape.sizeOf_lt c.2
    simp; omega
  · have := List.sizeOf_lt_of_mem c.2
    simp; omega

/-- The static signature of a signature of literals. -/
def resolveSignature (packages : Packages) (s : Signature TypeLiteral) :
    Except Error (Signature StaticType) := s.traverse packages.resolve

end Packages
end TypeIdentity
