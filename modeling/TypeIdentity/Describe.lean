import TypeIdentity.Shape

/-! # Short descriptions

Messages name an unnamed type by one line: structs and interfaces show the names of their members,
all other shapes show the descriptions of their components.
-/
namespace TypeIdentity

def describeList (items : List String) : String := "[" ++ ", ".intercalate items ++ "]"

/-- A package path and a name with a point between them; a name without a path stands alone. -/
def qualifiedName (path name : String) : String := if path = "" then name else path ++ "." ++ name

/-- The description of a shape, given those of the components that it shows. -/
def Shape.describe {α : Type} (f : α → String) : Shape α → String
  | basic b => b.name
  | array n e => "[" ++ toString n.toNat ++ "]" ++ f e
  | slice e => "[]" ++ f e
  | map k e => "map[" ++ f k ++ "]" ++ f e
  | chan d e => d.lead ++ f e
  | func s => "func" ++ describeList (s.ins.map f) ++ "->" ++ describeList (s.outs.map f)
  | struct fs => "struct\x7b" ++ "; ".intercalate (fs.map (·.name)) ++ "\x7d"
  | interface ms => "interface\x7b" ++ "; ".intercalate (ms.map (·.name)) ++ "\x7d"
  | pointer e => "*" ++ f e

end TypeIdentity
