import TypeIdentity.HostType

/-! # What views show

The view of a type determines its form, and the view of a named type determines the declaration or
the node behind it.
-/
namespace TypeIdentity
variable {store : Store} {α β : Type}

/-- All that the view of a reference is put together from. -/
theorem viewDecl_parts {d : Decl} {args : List StaticType} {v : NamedView StaticType}
    (h : store.viewDecl d args = .ok v) :
    args.length = d.arity ∧ ∃ skeleton underlying methods, store.skeleton d = .ok skeleton ∧
      skeleton.substitute args = .ok underlying ∧ store.declaredMethods d args = .ok methods ∧
      v = ⟨d.path, d.name, .resolved args, underlying, methods⟩ := by
  unfold Store.viewDecl at h
  split at h
  · cases h
  split at h
  · cases h
  next ha =>
  refine ⟨Decidable.of_not_not ha, ?_⟩
  cases hk : store.skeleton d with
  | error => simp [hk, bind, Except.bind] at h
  | ok k =>
    cases hu : k.substitute args with
    | error => simp [hk, hu, bind, Except.bind] at h
    | ok u =>
      cases hm : store.declaredMethods d args with
      | error => simp [hk, hu, hm, bind, Except.bind] at h
      | ok ms =>
        simp only [hk, hu, hm, bind, Except.bind, pure, Except.pure, Except.ok.injEq] at h
        exact ⟨k, u, ms, rfl, hu, rfl, h.symm⟩

theorem viewDecl_ok {d : Decl} {args : List StaticType} {v : NamedView StaticType}
    (h : store.viewDecl d args = .ok v) :
    v.path = d.path ∧ v.name = d.name ∧ v.args = .resolved args := by
  obtain ⟨-, k, u, ms, -, -, -, rfl⟩ := viewDecl_parts h
  exact ⟨rfl, rfl, rfl⟩

theorem arity_of_viewDecl {d : Decl} {args : List StaticType} {v : NamedView StaticType}
    (h : store.viewDecl d args = .ok v) : args.length = d.arity := (viewDecl_parts h).1

theorem viewDecl_of {d : Decl} {args : List StaticType} {skeleton underlying : StaticType}
    {methods : List (DeclaredMethod StaticType)} (ha : args.length = d.arity)
    (hs : store.skeleton d = .ok skeleton) (hu : skeleton.substitute args = .ok underlying)
    (hm : store.declaredMethods d args = .ok methods) :
    store.viewDecl d args = .ok ⟨d.path, d.name, .resolved args, underlying, methods⟩ := by
  have hg : ¬(d.isGeneric = true ∧ args = []) := by
    rintro ⟨hg, rfl⟩
    have hp : d.params = [] := List.length_eq_zero_iff.1 ha.symm
    rw [Decl.isGeneric, hp] at hg
    cases hg
  simp only [Store.viewDecl, if_neg hg, ne_eq, ha, not_true_eq_false, if_false, hs, hu, hm, bind,
    Except.bind, pure, Except.pure]

theorem viewNode_ok {n : Node} {v : NamedView RuntimeType} (h : store.viewNode n = .ok v) :
    ∃ body, store.body (.named n) = .ok body ∧
      Store.splitPrintedName n.name = .ok (v.name, v.args) ∧ v.path = n.path ∧
      v.underlying = .shape body ∧ v.methods = (store.node n).methods := by
  unfold Store.viewNode at h
  cases hb : store.body (.named n) with
  | error => simp [hb, bind, Except.bind] at h
  | ok body =>
    cases hs : Store.splitPrintedName n.name with
    | error => simp [hb, hs, bind, Except.bind] at h
    | ok p =>
      simp [hb, hs, bind, Except.bind, pure, Except.pure] at h
      subst h
      exact ⟨body, rfl, rfl, rfl, rfl, rfl⟩

theorem viewNode_of {n : Node} {body : Shape RuntimeType} {name : String}
    {args : TypeArgs RuntimeType} (hb : (store.node n).body = some body)
    (hs : Store.splitPrintedName n.name = .ok (name, args)) :
    store.viewNode n = .ok ⟨n.path, name, args, .shape body, (store.node n).methods⟩ := by
  simp [Store.viewNode, Store.body, hb, hs, bind, Except.bind, pure, Except.pure]

theorem view_static_of {d : Decl} {args : List StaticType} {v : NamedView StaticType}
    (h : store.viewDecl d args = .ok v) :
    store.view (.static (.named d args)) = .ok ((View.named v).map .static) := by
  simp [Store.view, Store.viewStatic, h, bind, Except.bind, pure, Except.pure]

theorem view_runtime_of {n : Node} {v : NamedView RuntimeType} (h : store.viewNode n = .ok v) :
    store.view (.runtime (.named n)) = .ok ((View.named v).map .runtime) := by
  simp [Store.view, Store.viewRuntime, h, bind, Except.bind, pure, Except.pure]

theorem view_static_shape {s : StaticType} {level : Shape HostType}
    (h : store.view (.static s) = .ok (.shape level)) :
    ∃ s₀, s = .shape s₀ ∧ level = s₀.mapChildren .static := by
  cases s with
  | shape s₀ => exact ⟨s₀, rfl, (View.shape.inj (Except.ok.inj h)).symm⟩
  | named d args =>
    cases hv : store.viewDecl d args <;>
      simp [Store.view, Store.viewStatic, hv, View.map, bind, Except.bind, pure, Except.pure] at h
  | param | tuple | union => cases h

theorem view_static_named {s : StaticType} {n : NamedView HostType}
    (h : store.view (.static s) = .ok (.named n)) :
    ∃ d args v, s = .named d args ∧ store.viewDecl d args = .ok v ∧
      View.named n = (View.named v).map .static := by
  cases s with
  | shape => cases h
  | named d args =>
    cases hv : store.viewDecl d args with
    | error => simp [Store.view, Store.viewStatic, hv, bind, Except.bind] at h
    | ok v =>
      simp [Store.view, Store.viewStatic, hv, bind, Except.bind, pure, Except.pure] at h
      exact ⟨d, args, v, rfl, hv, h.symm⟩
  | param | tuple | union => cases h

theorem view_runtime_shape {r : RuntimeType} {level : Shape HostType}
    (h : store.view (.runtime r) = .ok (.shape level)) :
    ∃ s₀, r = .shape s₀ ∧ level = s₀.mapChildren .runtime := by
  cases r with
  | shape s₀ => exact ⟨s₀, rfl, (View.shape.inj (Except.ok.inj h)).symm⟩
  | named n =>
    cases hv : store.viewNode n <;>
      simp [Store.view, Store.viewRuntime, hv, View.map, bind, Except.bind, pure, Except.pure] at h

theorem view_runtime_named {r : RuntimeType} {n : NamedView HostType}
    (h : store.view (.runtime r) = .ok (.named n)) :
    ∃ node v, r = .named node ∧ store.viewNode node = .ok v ∧
      View.named n = (View.named v).map .runtime := by
  cases r with
  | shape => cases h
  | named node =>
    cases hv : store.viewNode node with
    | error => simp [Store.view, Store.viewRuntime, hv, bind, Except.bind] at h
    | ok v =>
      simp [Store.view, Store.viewRuntime, hv, bind, Except.bind, pure, Except.pure] at h
      exact ⟨node, v, rfl, hv, h.symm⟩

/-! ## The graph, ready to be evaluated -/

/-- Identity within a representation, without the shortcut for one and the same object. -/
def HostType.agree : HostType → HostType → Bool
  | .static a, .static b => a.same b
  | .runtime a, .runtime b => a.same b
  | _, _ => false

theorem Store.graph_eq (store : Store) :
    store.graph = ⟨store.view, HostType.agree, HostType.describe⟩ := by
  have hsame : HostType.same = HostType.agree := by
    funext t u
    cases t <;> cases u
    case static.static a b => exact HostType.same_static a b
    all_goals rfl
  rw [graph, hsame]

/-! ## Images of views -/

/-- A view with its types replaced and with type arguments of its own. -/
def View.image (f : α → β) (args : TypeArgs β) : View α → View β
  | shape s => shape (s.mapChildren f)
  | named n => named ⟨n.path, n.name, args, f n.underlying, n.methods.map (·.map f)⟩

namespace View

theorem map_eq_image (f : α → β) (v : View α) : ∃ args, v.map f = v.image f args := by
  cases v with
  | shape s => exact ⟨.resolved [], rfl⟩
  | named n => exact ⟨n.args.map f, rfl⟩

@[simp] theorem isPointer_image (f : α → β) (a : TypeArgs β) (v : View α) :
    (v.image f a).isPointer = v.isPointer := by
  rcases v with (_ | _ | _ | _ | _ | _ | _ | _ | _) | _ <;> rfl

@[simp] theorem isInterface_image (f : α → β) (a : TypeArgs β) (v : View α) :
    (v.image f a).isInterface = v.isInterface := by
  rcases v with (_ | _ | _ | _ | _ | _ | _ | _ | _) | _ <;> rfl

@[simp] theorem isNamed_image (f : α → β) (a : TypeArgs β) (v : View α) :
    (v.image f a).isNamed = v.isNamed := by
  cases v <;> rfl

@[simp] theorem isPointer_map (f : α → β) (v : View α) : (v.map f).isPointer = v.isPointer := by
  obtain ⟨args, h⟩ := v.map_eq_image f
  rw [h, isPointer_image]

@[simp] theorem isInterface_map (f : α → β) (v : View α) :
    (v.map f).isInterface = v.isInterface := by
  obtain ⟨args, h⟩ := v.map_eq_image f
  rw [h, isInterface_image]

@[simp] theorem isNamed_map (f : α → β) (v : View α) : (v.map f).isNamed = v.isNamed := by
  obtain ⟨args, h⟩ := v.map_eq_image f
  rw [h, isNamed_image]

end View

end TypeIdentity
