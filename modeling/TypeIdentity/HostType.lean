import TypeIdentity.RuntimeType.Identity
import TypeIdentity.StaticType.Identity
import TypeIdentity.View

/-! # Host types

A host type is a type of either representation.  The two never agree with each other, even where
they denote the same type; identity is an equivalence that tables may use, and all host types
together form the graph that a store describes.
-/
namespace TypeIdentity

inductive HostType
  | static (type : StaticType)
  | runtime (type : RuntimeType)

namespace HostType

/-- A static type that has a literal form. -/
def ofStatic (t : StaticType) : Except Error HostType := do
  t.requireLiteralForm
  return static t

/-- Identity within a representation. -/
def same : HostType → HostType → Bool
  | static a, static b => (a.decideSame b).1
  | runtime a, runtime b => a.same b
  | _, _ => false

@[simp] theorem same_static (a b : StaticType) : (static a).same (static b) = a.same b :=
  (a.decideSame b).2

@[simp] theorem same_runtime (a b : RuntimeType) : (runtime a).same (runtime b) = a.same b := rfl

/-- What counts of a type when types are compared. -/
def nominal : HostType → HostType
  | static t => static t.nominal
  | runtime t => runtime t.nominal

theorem same_iff {t u : HostType} : t.same u = true ↔ t.nominal = u.nominal := by
  cases t <;> cases u
  case static.static => simp [nominal, StaticType.same_iff]
  case runtime.runtime => simp [nominal, RuntimeType.same_iff]
  all_goals simp [same, nominal]

instance : BEq HostType := ⟨same⟩

instance : EquivBEq HostType where
  rfl := same_iff.2 rfl
  symm h := same_iff.2 (same_iff.1 h).symm
  trans h k := same_iff.2 ((same_iff.1 h).trans (same_iff.1 k))

instance : Hashable HostType where
  hash
    | static t => t.digest
    | runtime t => mixHash 1 t.digest

instance : LawfulHashable HostType where
  hash_eq t u h := by
    cases t <;> cases u
    case static.static => exact StaticType.digest_eq_of_same (same_static _ _ ▸ h)
    case runtime.runtime => exact congrArg (mixHash 1) (RuntimeType.digest_eq_of_same h)
    all_goals exact absurd h (by simp [BEq.beq, same])

def describe : HostType → String
  | static t => t.describe
  | runtime t => t.describe

def inspect : HostType → String
  | static t => "Static(" ++ t.describe ++ ")"
  | runtime t => "Runtime(" ++ t.describe ++ ")"

end HostType

namespace Store

def view (store : Store) : HostType → Except Error (View HostType)
  | .static t => do return (← store.viewStatic t).map .static
  | .runtime t => do return (← store.viewRuntime t).map .runtime

def graph (store : Store) : TypeGraph HostType := ⟨store.view, HostType.same, HostType.describe⟩

theorem sizeOf_lt_of_view_shape {store : Store} {t c : HostType} {s : Shape HostType}
    (h : store.view t = .ok (.shape s)) (hc : c ∈ s.children) : sizeOf c < sizeOf t := by
  rcases t with (u | ⟨d, as⟩ | _ | _ | _) | (u | n)
  case static.shape | runtime.shape =>
    simp [view, viewStatic, viewRuntime, View.map, bind, Except.bind, pure, Except.pure] at h
    subst h
    rw [Shape.children_mapChildren] at hc
    obtain ⟨d, hd, rfl⟩ := List.mem_map.1 hc
    have := Shape.sizeOf_lt hd
    simp; omega
  case static.named =>
    cases hv : store.viewDecl d as <;>
      simp [view, viewStatic, hv, View.map, bind, Except.bind, pure, Except.pure] at h
  case runtime.named =>
    cases hv : store.viewNode n <;>
      simp [view, viewRuntime, hv, View.map, bind, Except.bind, pure, Except.pure] at h
  all_goals simp [view, viewStatic, bind, Except.bind] at h

theorem sizeOf_lt_of_view_args {store : Store} {t c : HostType} {v : NamedView HostType}
    {args : List HostType} (h : store.view t = .ok (.named v)) (ha : v.args = .resolved args)
    (hc : c ∈ args) : sizeOf c < sizeOf t := by
  rcases t with (u | ⟨d, as⟩ | _ | _ | _) | (u | n)
  case static.named =>
    cases hv : store.viewDecl d as with
    | error => simp [view, viewStatic, hv, bind, Except.bind] at h
    | ok w =>
      simp [view, viewStatic, hv, View.map, bind, Except.bind, pure, Except.pure] at h
      subst h
      simp [viewDecl_args hv, TypeArgs.map] at ha
      subst ha
      obtain ⟨d', hd, rfl⟩ := List.mem_map.1 hc
      have := List.sizeOf_lt_of_mem hd
      simp; omega
  case runtime.named =>
    cases hv : store.viewNode n with
    | error => simp [view, viewRuntime, hv, bind, Except.bind] at h
    | ok w =>
      simp [view, viewRuntime, hv, View.map, bind, Except.bind, pure, Except.pure] at h
      subst h
      cases hw : w.args with
      | printed => simp [hw, TypeArgs.map] at ha
      | resolved as =>
        simp [hw, TypeArgs.map, viewNode_args hv hw] at ha
        subst ha
        simp at hc
  all_goals
    simp [view, viewStatic, viewRuntime, View.map, bind, Except.bind, pure, Except.pure] at h

end Store
end TypeIdentity
