import TypeIdentity.RuntimeType.Basic
import TypeIdentity.StaticType.Substitution

/-! # The store of definitions

Declarations and nodes are created first and defined later, so that types may refer to themselves.
A definition is given once; methods may be added at any time.
-/
namespace TypeIdentity

structure DeclaredMethod (α : Type) where
  name : String
  signature : Signature α
  /-- Declared on the pointer to the type and not on the type itself. -/
  pointerReceiver : Bool
  deriving DecidableEq, Repr

/-- What is known of a named type. -/
structure Definition (β α : Type) where
  body : Option β
  methods : List (DeclaredMethod α)

namespace Definition
variable {β α : Type}

def empty : Definition β α := ⟨none, []⟩

def addMethod (d : Definition β α) (m : DeclaredMethod α) : Definition β α :=
  { d with methods := d.methods ++ [m] }

end Definition

/-- The definitions of all declarations and of all nodes, by id. -/
structure Store where
  decls : Array (Definition StaticType StaticType)
  nodes : Array (Definition (Shape RuntimeType) RuntimeType)

namespace Store

/-- The one method of the predeclared `error`, given the type of strings. -/
def errorShape {α : Type} (string : α) : Shape α := .interface [⟨"Error", [], [string], false⟩]

def initial : Store where
  decls := #[⟨some (.shape (errorShape (.shape (.basic .string)))), []⟩]
  nodes := #[⟨some (errorShape (.shape (.basic .string))), []⟩]

/-! ## Declarations -/

def declare (store : Store) (path name : String) (params : List String) : Decl × Store :=
  (⟨store.decls.size, path, name, params⟩, { store with decls := store.decls.push .empty })

def decl (store : Store) (d : Decl) : Definition StaticType StaticType :=
  store.decls.getD d.id .empty

def isDefined (store : Store) (d : Decl) : Bool := (store.decl d).body.isSome

/-- The type by which a declaration is defined, type parameters not replaced. -/
def skeleton (store : Store) (d : Decl) : Except Error StaticType :=
  match (store.decl d).body with
  | some t => .ok t
  | none => .error (.lookup d.path d.name .neverDefined)

/-- Defines a declaration; a named type cannot be the underlying type of another one. -/
def define (store : Store) (d : Decl) (underlying : StaticType) : Except Error Store :=
  if underlying.isNamed then .error (.unsupported (.namedUnderlying d.qualifiedName))
  else if store.isDefined d then .error (.redefined d.qualifiedName)
  else .ok { store with decls := store.decls.modify d.id ({ · with body := some underlying }) }

def addMethod (store : Store) (d : Decl) (m : DeclaredMethod StaticType) : Store :=
  { store with decls := store.decls.modify d.id (·.addMethod m) }

/-- The underlying type of a type; that of an instance has its arguments in place. -/
def underlying (store : Store) : StaticType → Except Error StaticType
  | .named d args =>
    if args.length = d.arity then do (← store.skeleton d).substitute args
    else .error (StaticType.arityError d args.length)
  | t => .ok t

/-! ## Nodes -/

def addNode (store : Store) (path name : String) : Node × Store :=
  (⟨store.nodes.size, path, name⟩, { store with nodes := store.nodes.push .empty })

def node (store : Store) (n : Node) : Definition (Shape RuntimeType) RuntimeType :=
  store.nodes.getD n.id .empty

/-- The shape of a type; a named type has the one it was defined with. -/
def body (store : Store) : RuntimeType → Except Error (Shape RuntimeType)
  | .shape s => .ok s
  | .named n =>
    match (store.node n).body with
    | some s => .ok s
    | none => .error (.lookup n.path n.name .neverDefined)

/-- Gives a node its body; every other type has one already. -/
def defineNode (store : Store) (t : RuntimeType) (body : Shape RuntimeType) : Except Error Store :=
  match t with
  | .named n =>
    if (store.node n).body.isSome then .error (.redefined t.describe)
    else .ok { store with nodes := store.nodes.modify n.id ({ · with body := some body }) }
  | .shape _ => .error (.redefined t.describe)

def addNodeMethod (store : Store) (t : RuntimeType) (m : DeclaredMethod RuntimeType) :
    Except Error Store :=
  match t with
  | .named n => .ok { store with nodes := store.nodes.modify n.id (·.addMethod m) }
  | .shape _ => .error (.unsupported (.unnamedReceiver t.describe))

end Store
end TypeIdentity
