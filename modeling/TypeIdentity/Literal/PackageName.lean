import TypeIdentity.Identifier

/-! # Short package names

A package is called after the last element of its path, or after the one before it if the last one
is a major version.  Whatever cannot stand in an identifier is replaced by an underscore.
-/
namespace TypeIdentity

/-- The elements of a path that are not empty, last one first. -/
def pathElements (path : List Char) : List (List Char) :=
  ((path.splitOn '/').filter (· ≠ [])).reverse

def isVersionElement : List Char → Bool
  | 'v' :: digits => !digits.isEmpty && digits.all Char.isDigit
  | _ => false

/-- The path element after which a package is called. -/
def namingElement (path : List Char) : List Char :=
  match pathElements path with
  | [] => path
  | [last] => last
  | last :: previous :: _ => if isVersionElement last then previous else last

/-- The name by which a package is called when nothing else is known of it. -/
def shortPackageName (path : String) : String :=
  let name := (namingElement path.toList).map fun c => if isIdentRest c then c else '_'
  String.ofList (if isIdentifier name then name else '_' :: name)

end TypeIdentity
