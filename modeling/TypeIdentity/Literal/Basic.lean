import TypeIdentity.Kind

/-! # Type literals

A literal is a fully resolved type: an unnamed shape over literals, or a reference to a named type
with its type arguments.  Equality of literals is decidable, and they admit induction over their
components.
-/
namespace TypeIdentity

/-- A resolved type; predeclared names have an empty package path. -/
inductive TypeLiteral
  | shape (level : Shape TypeLiteral)
  | named (path name : String) (args : List TypeLiteral)

namespace TypeLiteral

def children : TypeLiteral → List TypeLiteral
  | shape s => s.children
  | named _ _ args => args

theorem sizeOf_lt_of_mem_children {t c : TypeLiteral} (h : c ∈ t.children) :
    sizeOf c < sizeOf t := by
  cases t with
  | shape s =>
    have := Shape.sizeOf_lt (s := s) h
    simp; omega
  | named p n args =>
    have := List.sizeOf_lt_of_mem (show c ∈ args from h)
    simp; omega

@[elab_as_elim, induction_eliminator]
theorem induct {motive : TypeLiteral → Prop}
    (shape : ∀ s : Shape TypeLiteral, (∀ c ∈ s.children, motive c) → motive (.shape s))
    (named : ∀ p n args, (∀ c ∈ args, motive c) → motive (.named p n args)) : ∀ t, motive t
  | .shape s => shape s fun c _ => induct shape named c
  | .named p n args => named p n args fun c _ => induct shape named c
termination_by t => sizeOf t
decreasing_by all_goals exact sizeOf_lt_of_mem_children ‹_›

def same : TypeLiteral → TypeLiteral → Bool
  | .shape s, .shape t => s.agreeOn (fun c _ => same c) t
  | .named p n as, .named q m bs => p == q && n == m && agreeAll (fun c => same c.1) as.attach bs
  | _, _ => false
termination_by t => sizeOf t
decreasing_by
  · exact sizeOf_lt_of_mem_children ‹_›
  · exact sizeOf_lt_of_mem_children c.2

theorem same_iff {a b : TypeLiteral} : same a b = true ↔ a = b := by
  induction a generalizing b with
  | shape s ih =>
    cases b with
    | named => simp [same]
    | shape t =>
      rw [same, Shape.agreeOn_eq same s t,
        Shape.agree_iff_map (f := id) (g := id) fun a ha b => ih a ha (b := b)]
      simp
  | named p n as ih =>
    cases b with
    | shape => simp [same]
    | named q m bs =>
      rw [same, agreeAll_attach same as bs, Bool.and_eq_true,
        agreeAll_iff_map (f := id) (g := id) fun a ha b => ih a ha (b := b)]
      simp [and_assoc]

instance : DecidableEq TypeLiteral := fun _ _ => decidable_of_iff _ same_iff

def error : TypeLiteral := named "" "error" []

def any : TypeLiteral := shape (.interface [])

def kind : TypeLiteral → Kind
  | shape s => s.kind
  | named .. => .named

/-- The package path of a named type; empty for all others. -/
def path : TypeLiteral → String
  | shape _ => ""
  | named path _ _ => path

/-- The type that a pointer points to, or the type itself. -/
def pointee : TypeLiteral → TypeLiteral
  | shape (.pointer e) => e
  | t => t

def elem? : TypeLiteral → Option TypeLiteral
  | shape (.array _ e) | shape (.slice e) | shape (.map _ e) | shape (.chan _ e)
  | shape (.pointer e) => some e
  | _ => none

def key? : TypeLiteral → Option TypeLiteral
  | shape (.map k _) => some k
  | _ => none

def length? : TypeLiteral → Option UInt64
  | shape (.array n _) => some n
  | _ => none

def direction? : TypeLiteral → Option Direction
  | shape (.chan d _) => some d
  | _ => none

def fields : TypeLiteral → List (Field TypeLiteral)
  | shape (.struct fs) => fs
  | _ => []

def methods : TypeLiteral → List (Method TypeLiteral)
  | shape (.interface ms) => ms
  | _ => []

def typeArgs : TypeLiteral → List TypeLiteral
  | named _ _ args => args
  | _ => []

def isError : TypeLiteral → Bool
  | named path name _ => path = "" && name = "error"
  | _ => false

def isVariadic : TypeLiteral → Bool
  | shape (.func s) => s.variadic
  | _ => false

end TypeLiteral
end TypeIdentity
