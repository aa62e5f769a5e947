import TypeIdentity.Describe
import TypeIdentity.Error

/-! # Runtime types

What reflection on live values tells of a type: unnamed types are shapes, and a named type is a node
with a printed name.  The name of an instantiated type holds its type arguments as text.
-/
namespace TypeIdentity

/-- A reference to a named type. -/
structure Node where
  /-- Where the store keeps its definition. -/
  id : Nat
  path : String
  /-- The printed name, type arguments included. -/
  name : String
  deriving DecidableEq, Repr

/-- A type as reflection reports it. -/
inductive RuntimeType
  | shape (level : Shape RuntimeType)
  | named (node : Node)

namespace RuntimeType

/-- The immediate components; a named type has none. -/
def children : RuntimeType → List RuntimeType
  | shape s => s.children
  | named _ => []

theorem sizeOf_lt_of_mem_children {t c : RuntimeType} (h : c ∈ t.children) :
    sizeOf c < sizeOf t := by
  cases t with
  | shape s =>
    have := Shape.sizeOf_lt (s := s) h
    simp; omega
  | named => simp [children] at h

@[elab_as_elim, induction_eliminator]
theorem induct {motive : RuntimeType → Prop}
    (shape : ∀ s : Shape RuntimeType, (∀ c ∈ s.children, motive c) → motive (.shape s))
    (named : ∀ node, motive (.named node)) : ∀ t, motive t
  | .shape s => shape s fun c _ => induct shape named c
  | .named node => named node
termination_by t => sizeOf t
decreasing_by exact sizeOf_lt_of_mem_children ‹_›

/-- Identity: structural, except that named types agree when path and printed name do. -/
def same : RuntimeType → RuntimeType → Bool
  | shape s, shape t => s.agreeOn (fun c _ => same c) t
  | named a, named b => a.path == b.path && a.name == b.name
  | _, _ => false
termination_by t => sizeOf t
decreasing_by exact sizeOf_lt_of_mem_children ‹_›

def describe : RuntimeType → String
  | shape s => s.attach.describe fun c => describe c.1
  | named node => qualifiedName node.path node.name
termination_by t => sizeOf t
decreasing_by exact sizeOf_lt_of_mem_children c.2

def error : RuntimeType := named ⟨0, "", "error"⟩

/-- The package path of a named type; empty for all others. -/
def path : RuntimeType → String
  | named node => node.path
  | shape _ => ""

/-- The printed name of a named type; empty for all others. -/
def name : RuntimeType → String
  | named node => node.name
  | shape _ => ""

/-- The type that a pointer points to, or the type itself. -/
def pointee : RuntimeType → RuntimeType
  | shape (.pointer e) => e
  | t => t

/-- A field that embeds a type, called after the printed name without its type arguments. -/
def embedded (t : RuntimeType) : Field RuntimeType :=
  ⟨String.ofList (t.pointee.name.toList.takeWhile (· ≠ '[')), t, "", true⟩

end RuntimeType
end TypeIdentity
