import TypeIdentity.Store

/-! # Views and type graphs

A view describes one type and its neighbours: an unnamed type shows its shape, a named type its
arguments, its instantiated underlying type and its declared methods.  A type graph is whatever
gives views of its types; member resolution knows no more of types than that.
-/
namespace TypeIdentity

/-- The arguments of a named type, as types or as the text between its brackets. -/
inductive TypeArgs (α : Type)
  | resolved (args : List α)
  | printed (text : String)

structure NamedView (α : Type) where
  path : String
  /-- The declared name, without type arguments. -/
  name : String
  args : TypeArgs α
  underlying : α
  methods : List (DeclaredMethod α)

/-- One type and its neighbours. -/
inductive View (α : Type)
  | shape (level : Shape α)
  | named (type : NamedView α)

/-- Types seen through their views, with an identity of their own. -/
structure TypeGraph (α : Type) where
  view : α → Except Error (View α)
  same : α → α → Bool
  describe : α → String

variable {α β : Type}

def DeclaredMethod.map (f : α → β) (m : DeclaredMethod α) : DeclaredMethod β :=
  ⟨m.name, m.signature.map f, m.pointerReceiver⟩

/-- A method listed in an interface, which every value of the type has. -/
def Method.declared (m : Method α) : DeclaredMethod α := ⟨m.name, m.signature, false⟩

namespace TypeArgs

def map (f : α → β) : TypeArgs α → TypeArgs β
  | resolved args => resolved (args.map f)
  | printed text => printed text

def isEmpty : TypeArgs α → Bool
  | resolved args => args.isEmpty
  | printed text => text.isEmpty

end TypeArgs

namespace View

def map (f : α → β) : View α → View β
  | shape s => shape (s.mapChildren f)
  | named n => named ⟨n.path, n.name, n.args.map f, f n.underlying, n.methods.map (·.map f)⟩

def isPointer : View α → Bool
  | shape (.pointer _) => true
  | _ => false

def isInterface : View α → Bool
  | shape (.interface _) => true
  | _ => false

def isNamed : View α → Bool
  | named _ => true
  | shape _ => false

end View

/-- Whether the underlying type of a type is an interface. -/
def TypeGraph.isInterface (g : TypeGraph α) (t : α) : Except Error Bool := do
  match ← g.view t with
  | .named n => return (← g.view n.underlying).isInterface
  | v => return v.isInterface

namespace Store

def declaredMethods (store : Store) (d : Decl) (args : List StaticType) :
    Except Error (List (DeclaredMethod StaticType)) :=
  (store.decl d).methods.mapM fun m => do
    return ⟨m.name, ← m.signature.substitute args, m.pointerReceiver⟩

/-- What a reference to a declaration shows: it must have all its arguments and a definition. -/
def viewDecl (store : Store) (d : Decl) (args : List StaticType) :
    Except Error (NamedView StaticType) :=
  if d.isGeneric ∧ args = [] then .error (.unsupported (.uninstantiated d.qualifiedName))
  else if args.length ≠ d.arity then .error (StaticType.arityError d args.length)
  else do
    let underlying ← (← store.skeleton d).substitute args
    return ⟨d.path, d.name, .resolved args, underlying, ← store.declaredMethods d args⟩

theorem viewDecl_args {store : Store} {d : Decl} {args : List StaticType} {n : NamedView StaticType}
    (h : store.viewDecl d args = .ok n) : n.args = .resolved args := by
  unfold viewDecl at h
  split at h
  · simp at h
  · split at h
    · simp at h
    · cases hk : store.skeleton d with
      | error => simp [hk, bind, Except.bind] at h
      | ok k =>
        cases hu : k.substitute args with
        | error => simp [hk, hu, bind, Except.bind] at h
        | ok u =>
          cases hm : store.declaredMethods d args <;>
            simp [hk, hu, hm, bind, Except.bind, pure, Except.pure] at h
          subst h
          rfl

/-- The view of a static type; what has no literal form has no view either. -/
def viewStatic (store : Store) : StaticType → Except Error (View StaticType)
  | .shape s => .ok (.shape s)
  | .named d args => do return .named (← store.viewDecl d args)
  | .param _ name => .error (.unsupported (.typeParameter name))
  | .tuple _ => .error (.unsupported .resultTuple)
  | .union _ => .error (.unsupported .constraintUnion)

/-- The declared name in a printed name, and the text of the type arguments if there are any. -/
def splitPrintedName (name : String) : Except Error (String × TypeArgs RuntimeType) :=
  match name.toList.dropWhile (· ≠ '[') with
  | [] => .ok (name, .resolved [])
  | _ :: rest =>
    if rest.getLast? = some ']' then
      .ok (String.ofList (name.toList.takeWhile (· ≠ '[')), .printed (String.ofList rest.dropLast))
    else .error (.malformed name .openTypeArguments)

theorem splitPrintedName_args {name base : String} {args : List RuntimeType}
    (h : splitPrintedName name = .ok (base, .resolved args)) : args = [] := by
  unfold splitPrintedName at h
  split at h
  · simp at h
    exact h.2
  · split at h <;> simp at h

/-- What a node shows: it must have a body and a well-formed printed name. -/
def viewNode (store : Store) (n : Node) : Except Error (NamedView RuntimeType) := do
  let body ← store.body (.named n)
  let (name, args) ← splitPrintedName n.name
  return ⟨n.path, name, args, .shape body, (store.node n).methods⟩

theorem viewNode_args {store : Store} {n : Node} {v : NamedView RuntimeType}
    {args : List RuntimeType} (h : store.viewNode n = .ok v) (ha : v.args = .resolved args) :
    args = [] := by
  unfold viewNode at h
  cases hb : store.body (.named n) with
  | error => simp [hb, bind, Except.bind] at h
  | ok b =>
    cases hs : splitPrintedName n.name with
    | error => simp [hb, hs, bind, Except.bind] at h
    | ok p =>
      simp [hb, hs, bind, Except.bind, pure, Except.pure] at h
      subst h
      exact splitPrintedName_args (hs.trans (by rw [← ha]))

def viewRuntime (store : Store) : RuntimeType → Except Error (View RuntimeType)
  | .shape s => .ok (.shape s)
  | .named n => do return .named (← store.viewNode n)

end Store
end TypeIdentity
