import TypeIdentity.Shape

/-! # Kinds

The kind of a type is its outermost constructor, for a basic type with the basic type itself.
-/
namespace TypeIdentity

/-- The outermost constructor of a type. -/
inductive Kind
  | basic (type : BasicType)
  | array | slice | map | chan | func | struct | interface | pointer | named
  deriving DecidableEq, Repr

def Kind.text : Kind → String
  | basic b => b.name
  | array => "array"
  | slice => "slice"
  | map => "map"
  | chan => "chan"
  | func => "func"
  | struct => "struct"
  | interface => "interface"
  | pointer => "ptr"
  | named => "named"

def Shape.kind {α : Type} : Shape α → Kind
  | basic b => .basic b
  | array .. => .array
  | slice _ => .slice
  | map .. => .map
  | chan .. => .chan
  | func _ => .func
  | struct _ => .struct
  | interface _ => .interface
  | pointer _ => .pointer

end TypeIdentity
