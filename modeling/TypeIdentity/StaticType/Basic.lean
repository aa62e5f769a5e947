import TypeIdentity.Describe
import TypeIdentity.Error

/-! # Static types

What a type checker knows of a type: named types refer to declarations, a generic declaration takes
type arguments, and type parameters, result tuples and constraint unions may occur.  Two references
are to the same declaration when path and name agree.
-/
namespace TypeIdentity

/-- A reference to a type declaration. -/
structure Decl where
  /-- Where the store keeps its definition. -/
  id : Nat
  path : String
  name : String
  params : List String
  deriving DecidableEq, Repr

namespace Decl

def arity (d : Decl) : Nat := d.params.length

def isGeneric (d : Decl) : Bool := !d.params.isEmpty

def qualifiedName (d : Decl) : String := TypeIdentity.qualifiedName d.path d.name

/-- Identity of declarations is nominal. -/
def same (d e : Decl) : Bool := d.path == e.path && d.name == e.name

/-- The declaration with its type parameters, as messages show it. -/
def describe (d : Decl) : String :=
  "NamedDecl(" ++ d.qualifiedName ++ ")" ++
    if d.isGeneric then "[" ++ ", ".intercalate d.params ++ "]" else ""

def error : Decl := ⟨0, "", "error", []⟩

end Decl

/-- A type as static analysis sees it. -/
inductive StaticType
  | shape (level : Shape StaticType)
  | named (decl : Decl) (args : List StaticType)
  /-- A type parameter, by its position in the declaration, which is a word of 64 bits. -/
  | param (index : UInt64) (name : String)
  | tuple (items : List StaticType)
  | union (items : List StaticType)

namespace StaticType

/-- The immediate components; those of a reference are its type arguments. -/
def children : StaticType → List StaticType
  | shape s => s.children
  | named _ args => args
  | param .. => []
  | tuple items | union items => items

theorem sizeOf_lt_of_mem_children {t c : StaticType} (h : c ∈ t.children) :
    sizeOf c < sizeOf t := by
  cases t with
  | shape s =>
    have := Shape.sizeOf_lt (s := s) h
    simp; omega
  | param => simp [children] at h
  | named _ l | tuple l | union l =>
    have := List.sizeOf_lt_of_mem (show c ∈ l from h)
    simp; omega

@[elab_as_elim, induction_eliminator]
theorem induct {motive : StaticType → Prop}
    (shape : ∀ s : Shape StaticType, (∀ c ∈ s.children, motive c) → motive (.shape s))
    (named : ∀ d args, (∀ c ∈ args, motive c) → motive (.named d args))
    (param : ∀ index name, motive (.param index name))
    (tuple : ∀ items, (∀ c ∈ items, motive c) → motive (.tuple items))
    (union : ∀ items, (∀ c ∈ items, motive c) → motive (.union items)) : ∀ t, motive t
  | .shape s => shape s fun c _ => induct shape named param tuple union c
  | .named d args => named d args fun c _ => induct shape named param tuple union c
  | .param index name => param index name
  | .tuple items => tuple items fun c _ => induct shape named param tuple union c
  | .union items => union items fun c _ => induct shape named param tuple union c
termination_by t => sizeOf t
decreasing_by all_goals exact sizeOf_lt_of_mem_children ‹_›

/-- Identity: structural, except that references agree when their declarations do by name. -/
def same : StaticType → StaticType → Bool
  | shape s, shape t => s.agreeOn (fun c _ => same c) t
  | named d as, named e bs => d.same e && agreeAll (fun c => same c.1) as.attach bs
  | param i n, param j m => i == j && n == m
  | tuple as, tuple bs => agreeAll (fun c => same c.1) as.attach bs
  | union as, union bs => agreeAll (fun c => same c.1) as.attach bs
  | _, _ => false
termination_by t => sizeOf t
decreasing_by all_goals first
  | exact sizeOf_lt_of_mem_children ‹_›
  | exact sizeOf_lt_of_mem_children c.2

def describe : StaticType → String
  | shape s => s.attach.describe fun c => describe c.1
  | named d [] => d.qualifiedName
  | named d (a :: rest) =>
    d.qualifiedName ++ describeList ((a :: rest).attach.map fun c => describe c.1)
  | param index name => "$" ++ toString index ++ ":" ++ name
  | tuple items => "tuple" ++ describeList (items.attach.map fun c => describe c.1)
  | union items => "union" ++ describeList (items.attach.map fun c => describe c.1)
termination_by t => sizeOf t
decreasing_by all_goals exact sizeOf_lt_of_mem_children c.2

def error : StaticType := named .error []

def isNamed : StaticType → Bool
  | named .. => true
  | _ => false

/-- The category of types that have no literal form, if the type belongs to one. -/
def unsupported? : StaticType → Option Unsupported
  | shape _ => none
  | named d args =>
    if d.isGeneric && args.isEmpty then some (.uninstantiated d.qualifiedName) else none
  | param _ name => some (.typeParameter name)
  | tuple _ => some .resultTuple
  | union _ => some .constraintUnion

/-- Refuses the types that have no literal form. -/
def requireLiteralForm (t : StaticType) : Except Error Unit :=
  match t.unsupported? with
  | some category => .error (.unsupported category)
  | none => .ok ()

/-- The type that a pointer points to, or the type itself. -/
def pointee : StaticType → StaticType
  | shape (.pointer e) => e
  | t => t

/-- A field that embeds a named or basic type, or a pointer to one. -/
def embedded (t : StaticType) : Except Error (Field StaticType) :=
  match t.pointee with
  | named d _ => .ok ⟨d.name, t, "", true⟩
  | shape (.basic b) => .ok ⟨b.name, t, "", true⟩
  | other => .error (.unsupported (.embeddedField other.describe))

end StaticType
end TypeIdentity
