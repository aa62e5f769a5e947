import TypeIdentity.Packages
import TypeIdentity.Proofs.Substitution
import TypeIdentity.Proofs.Views

/-! # Underlying types

Whatever has been declared, no declaration is defined by a named type.  So the underlying type of a
reference can be named only where the declaration is defined by one of its parameters: this one is
not a named type until an argument takes its place.
-/
namespace TypeIdentity

namespace StaticType
variable {s t : StaticType} {args : List StaticType}

/-- What is not a named type becomes one only if it is a parameter for which there is one. -/
theorem Becomes.isNamed_iff (hs : s.isNamed = false) (h : Becomes args s t) :
    t.isNamed = true ↔
      ∃ index name a, s = .param index name ∧ args[index.toNat]? = some a ∧ a.isNamed = true := by
  cases h with
  | shape | tuple | union => exact ⟨fun ht => (nomatch ht), fun ⟨_, _, _, h, _⟩ => (nomatch h)⟩
  | param ht =>
    constructor
    · intro hn
      exact ⟨_, _, t, rfl, ht, hn⟩
    · rintro ⟨_, _, a, h, ha, hn⟩
      cases h
      obtain rfl := Option.some.inj (ht.symm.trans ha)
      exact hn
  | plain | unbound | bound => cases hs

theorem isNamed_of_substitute (hs : s.isNamed = false) (h : s.substitute args = .ok t) :
    t.isNamed = true ↔
      ∃ index name a, s = .param index name ∧ args[index.toNat]? = some a ∧ a.isNamed = true := by
  by_cases ha : args = []
  · subst ha
    obtain rfl := Except.ok.inj h
    simp [hs]
  · exact ((substitute_eq_ok ha).1 h).isNamed_iff hs

end StaticType

namespace Store

/-- No declaration is defined by a named type. -/
def NeverNamed (store : Store) : Prop :=
  ∀ d t, (store.decl d).body = some t → t.isNamed = false

/-- A reference to a declaration that is defined by a parameter, for which there is a named type. -/
inductive Forwards (store : Store) : StaticType → Prop
  | intro {d : Decl} {args : List StaticType} {index : UInt64} {name : String} {a : StaticType}
      (hd : store.skeleton d = .ok (.param index name)) (ha : args[index.toNat]? = some a)
      (hn : a.isNamed = true) : Forwards store (.named d args)

/-- The definitions that a type leads to, one underlying type after the other, end in an interface. -/
inductive EndsInInterface (store : Store) : StaticType → Prop
  | here {t : StaticType} {ms : List (Method StaticType)}
      (h : store.underlying t = .ok (.shape (.interface ms))) : EndsInInterface store t
  | beyond {t u : StaticType} (h : store.underlying t = .ok u) (hn : u.isNamed = true)
      (hu : EndsInInterface store u) : EndsInInterface store t

variable {store store' : Store} {d : Decl} {t u : StaticType} {args : List StaticType}

theorem skeleton_eq_ok : store.skeleton d = .ok t ↔ (store.decl d).body = some t := by
  rw [skeleton]
  cases (store.decl d).body <;> simp

/-! ## What the operations do to the definitions -/

/-- A new declaration has no definition yet, like those that are not there. -/
theorem decl_declare (path name : String) (params : List String) :
    (store.declare path name params).2.decl d = store.decl d := by
  simp only [declare, decl, Array.getD_eq_getD_getElem?, Array.getElem?_push]
  split
  · next hd => rw [hd, Array.getElem?_eq_none (Nat.le_refl _)]; rfl
  · rfl

theorem decl_addMethod (e : Decl) (m : DeclaredMethod StaticType) :
    ((store.addMethod e m).decl d).body = (store.decl d).body := by
  simp only [addMethod, decl, Array.getD_eq_getD_getElem?, Array.getElem?_modify]
  split
  · cases store.decls[d.id]? <;> rfl
  · rfl

/-- What a declaration is defined by after a definition was new, or else it was that before. -/
theorem body_of_define {e : Decl} (h : store.define e u = .ok store')
    (hb : (store'.decl d).body = some t) :
    u.isNamed = false ∧ (t = u ∨ (store.decl d).body = some t) := by
  unfold define at h
  split at h
  · cases h
  next hu =>
  split at h
  · cases h
  refine ⟨by simpa using hu, ?_⟩
  obtain rfl := Except.ok.inj h
  simp only [decl, Array.getD_eq_getD_getElem?, Array.getElem?_modify] at hb ⊢
  split at hb
  · cases hd : store.decls[d.id]? with
    | none => simp [hd, Definition.empty] at hb
    | some b => exact .inl (by simpa [hd] using hb.symm)
  · exact .inr hb

theorem NeverNamed.declare (hs : store.NeverNamed) (path name : String) (params : List String) :
    (store.declare path name params).2.NeverNamed := by
  intro d t hb
  rw [decl_declare] at hb
  exact hs d t hb

theorem NeverNamed.addMethod (hs : store.NeverNamed) (e : Decl) (m : DeclaredMethod StaticType) :
    (store.addMethod e m).NeverNamed := by
  intro d t hb
  rw [decl_addMethod] at hb
  exact hs d t hb

theorem NeverNamed.define {e : Decl} (hs : store.NeverNamed) (h : store.define e u = .ok store') :
    store'.NeverNamed := by
  intro d t hb
  obtain ⟨hu, rfl | hb⟩ := body_of_define h hb
  · exact hu
  · exact hs d t hb

/-! ## The underlying type of a reference -/

theorem underlying_named : store.underlying (.named d args) = .ok u ↔
    args.length = d.arity ∧ ∃ k, store.skeleton d = .ok k ∧ k.substitute args = .ok u := by
  rw [underlying]
  split
  next ha => cases store.skeleton d <;> simp [ha, bind, Except.bind]
  next ha => simp [ha]

theorem viewStatic_named {v : NamedView StaticType} :
    store.viewStatic (.named d args) = .ok (.named v) ↔ store.viewDecl d args = .ok v := by
  cases hv : store.viewDecl d args <;>
    simp [viewStatic, hv, bind, Except.bind, pure, Except.pure]

/-- The view of a reference shows its underlying type. -/
theorem underlying_of_view {v : NamedView StaticType} (h : store.viewStatic t = .ok (.named v)) :
    store.underlying t = .ok v.underlying := by
  cases t with
  | named d args =>
    obtain ⟨ha, k, u, ms, hk, hu, -, rfl⟩ := viewDecl_parts (viewStatic_named.1 h)
    exact underlying_named.2 ⟨ha, k, hk, hu⟩
  | shape | param | tuple | union => cases h

theorem NeverNamed.isNamed_iff (hs : store.NeverNamed) (h : store.underlying t = .ok u) :
    u.isNamed = true ↔ store.Forwards t := by
  cases t with
  | named d args =>
    obtain ⟨-, k, hk, hu⟩ := underlying_named.1 h
    rw [StaticType.isNamed_of_substitute (hs d k (skeleton_eq_ok.1 hk)) hu]
    constructor
    · rintro ⟨index, name, a, rfl, ha, hn⟩
      exact .intro hk ha hn
    · intro hf
      cases hf with
      | intro hd ha hn => exact ⟨_, _, _, Except.ok.inj (hk.symm.trans hd), ha, hn⟩
  | shape | param | tuple | union =>
    obtain rfl := Except.ok.inj h
    exact ⟨fun hn => (nomatch hn), fun hf => (nomatch hf)⟩

/-! ## Interfaces -/

/-- Where nothing is forwarded the definitions end with the first one. -/
theorem NeverNamed.underlying_eq (hs : store.NeverNamed) (ht : store.EndsInInterface t)
    (hf : ¬store.Forwards t) : ∃ ms, store.underlying t = .ok (.shape (.interface ms)) := by
  cases ht with
  | here h => exact ⟨_, h⟩
  | beyond h hn => exact absurd ((hs.isNamed_iff h).1 hn) hf

theorem isInterface_of_view {v : NamedView StaticType} (hv : store.viewDecl d args = .ok v) :
    store.graph.isInterface (.static (.named d args)) =
      (store.view (.static v.underlying)).map View.isInterface := by
  simp only [TypeGraph.isInterface, graph, view_static_of hv, View.map, bind, Except.bind]
  cases store.view (.static v.underlying) <;> rfl

theorem exists_view_of_isInterface {b : Bool}
    (h : store.graph.isInterface (.static (.named d args)) = .ok b) :
    ∃ v w, store.viewDecl d args = .ok v ∧ store.view (.static v.underlying) = .ok w ∧
      w.isInterface = b := by
  cases hv : store.viewDecl d args with
  | error e =>
    simp only [TypeGraph.isInterface, graph, view, viewStatic, hv, bind, Except.bind] at h
    cases h
  | ok v =>
    rw [isInterface_of_view hv] at h
    cases hw : store.view (.static v.underlying) with
    | error e => rw [hw] at h; cases h
    | ok w =>
      rw [hw] at h
      exact ⟨v, w, rfl, hw, Except.ok.inj h⟩

theorem isNamed_view {w : View HostType} (h : store.view (.static t) = .ok w) :
    w.isNamed = t.isNamed := by
  cases w with
  | shape =>
    obtain ⟨s, rfl, -⟩ := view_static_shape h
    rfl
  | named =>
    obtain ⟨d, args, v, rfl, -⟩ := view_static_named h
    rfl

/-- What ends in an interface counts as one unless it is forwarded, if its methods can be shown. -/
theorem NeverNamed.isInterface_iff (hs : store.NeverNamed)
    (ht : store.EndsInInterface (.named d args)) :
    store.graph.isInterface (.static (.named d args)) = .ok true ↔
      ¬store.Forwards (.named d args) ∧ ∃ ms, store.declaredMethods d args = .ok ms := by
  constructor
  · intro h
    obtain ⟨v, w, hv, hw, hi⟩ := exists_view_of_isInterface h
    obtain ⟨ha, k, u, ms, hk, hu, hm, rfl⟩ := viewDecl_parts hv
    refine ⟨fun hf => ?_, ms, hm⟩
    have hn := (hs.isNamed_iff (underlying_named.2 ⟨ha, k, hk, hu⟩)).2 hf
    rw [← isNamed_view hw] at hn
    cases w with
    | shape => cases hn
    | named => cases hi
  · rintro ⟨hf, ms, hm⟩
    obtain ⟨methods, hu⟩ := hs.underlying_eq ht hf
    obtain ⟨ha, k, hk, hu⟩ := underlying_named.1 hu
    rw [isInterface_of_view (viewDecl_of ha hk hu hm)]
    rfl

end Store

/-! ## Any calls -/

/-- The packages and the definitions that declaring types goes on with. -/
structure Declarations where
  packages : Packages
  store : Store

namespace Declarations

/-- What can be done about declarations, in whatever order. -/
inductive Call
  /-- A declaration that belongs to no package. -/
  | new (path name : String) (params : List String)
  | declare (path name : String) (params : List String)
  | define (d : Decl) (underlying : StaticType)
  | addMethod (d : Decl) (m : DeclaredMethod StaticType)

/-- The declarations after one call, which may have failed. -/
def after (s : Declarations) : Call → Declarations
  | .new path name params => { s with store := (s.store.declare path name params).2 }
  | .declare path name params =>
    let (answer, packages) := s.packages.declare path name params s.store
    match answer with
    | .ok (_, store) => ⟨packages, store⟩
    | .error _ => { s with packages }
  | .define d underlying =>
    match s.store.define d underlying with
    | .ok store => { s with store }
    | .error _ => s
  | .addMethod d m => { s with store := s.store.addMethod d m }

/-- The declarations after a sequence of calls that began with the predeclared types only. -/
def reached (calls : List Call) : Declarations := calls.foldl after ⟨.empty, .initial⟩

variable {s : Declarations}

theorem neverNamed_initial : Store.initial.NeverNamed := by
  rintro ⟨_ | id, path, name, params⟩ t hb
  · obtain rfl := Option.some.inj hb
    rfl
  · cases hb

/-- A name that is declared already leaves the definitions as they are. -/
theorem store_after_declare (path name : String) (params : List String) :
    (s.after (.declare path name params)).store = s.store ∨
      (s.after (.declare path name params)).store = (s.store.declare path name params).2 := by
  simp only [after, Packages.declare]
  by_cases hn : name ∈ (s.packages.add path).byPath.getD path ∅
  · exact .inl (by rw [if_pos hn])
  · exact .inr (by rw [if_neg hn])

theorem neverNamed_after (h : s.store.NeverNamed) (call : Call) :
    (s.after call).store.NeverNamed := by
  cases call with
  | new path name params => exact h.declare path name params
  | declare path name params =>
    rcases store_after_declare (s := s) path name params with hs | hs
    · rwa [hs]
    · rw [hs]
      exact h.declare path name params
  | define e underlying =>
    rw [after]
    cases hr : s.store.define e underlying with
    | error => exact h
    | ok store => exact h.define hr
  | addMethod e m => exact h.addMethod e m

theorem neverNamed_foldl (h : s.store.NeverNamed) (calls : List Call) :
    (calls.foldl after s).store.NeverNamed := by
  induction calls generalizing s with
  | nil => exact h
  | cons call calls ih => exact ih (neverNamed_after h call)

theorem neverNamed_reached (calls : List Call) : (reached calls).store.NeverNamed :=
  neverNamed_foldl neverNamed_initial calls

/-- Whatever was declared and defined, an underlying type is named only if it is forwarded, and a
reference that leads to an interface counts as one if it is not forwarded and its methods can be
shown. -/
theorem isNamed_underlying_iff (calls : List Call) (t : StaticType) :
    let store := (reached calls).store
    (∀ u, store.underlying t = .ok u ∨
        (∃ v, store.viewStatic t = .ok (.named v) ∧ v.underlying = u) →
      (u.isNamed = true ↔ store.Forwards t)) ∧
    ∀ d args, t = .named d args → store.EndsInInterface t →
      (store.graph.isInterface (.static t) = .ok true ↔
        ¬store.Forwards t ∧ ∃ ms, store.declaredMethods d args = .ok ms) := by
  intro store
  have hs : store.NeverNamed := neverNamed_reached calls
  refine ⟨?_, ?_⟩
  · rintro u (hu | ⟨v, hv, rfl⟩)
    · exact hs.isNamed_iff hu
    · exact hs.isNamed_iff (Store.underlying_of_view hv)
  · rintro d args rfl ht
    exact hs.isInterface_iff ht

def item : Decl := ⟨1, "lib", "Item", []⟩

def holder : Decl := ⟨2, "lib", "Holder", ["T"]⟩

/-- An interface, and a generic type that is whatever it is applied to. -/
def holderCalls : List Call :=
  [.new "lib" "Item" [], .new "lib" "Holder" ["T"], .define item (.shape (.interface [])),
    .define holder (.param 0 "T")]

theorem underlying_item :
    (reached holderCalls).store.underlying (.named item []) = .ok (.shape (.interface [])) :=
  Store.underlying_named.2 ⟨rfl, _, rfl, StaticType.substitute_nil _⟩

theorem forwards_holder : (reached holderCalls).store.Forwards (.named holder [.named item []]) :=
  .intro rfl rfl rfl

/-- The item is an interface itself, and named as the underlying type of its holder. -/
theorem isNamed_underlying_iff_holder :
    let store := (reached holderCalls).store
    store.graph.isInterface (.static (.named item [])) = .ok true ∧
      ∀ u, store.underlying (.named holder [.named item []]) = .ok u → u.isNamed = true := by
  intro store
  have hitem := (isNamed_underlying_iff holderCalls (.named item [])).2 _ _ rfl
    (.here underlying_item)
  refine ⟨hitem.2 ⟨?_, [], rfl⟩, fun u hu => ?_⟩
  · intro hf
    cases hf with
    | intro hd => cases hd
  · exact ((isNamed_underlying_iff holderCalls _).1 u (.inl hu)).2 forwards_holder

/-- The holder of an interface has a named underlying type, so it does not count as an interface. -/
theorem underlying_holder :
    let store := (reached holderCalls).store
    let t : StaticType := .named holder [.named item []]
    store.underlying t = .ok (.named item []) ∧
      (∃ v, store.viewStatic t = .ok (.named v) ∧ v.underlying = .named item []) ∧
      store.EndsInInterface t ∧ store.graph.isInterface (.static t) = .ok false := by
  intro store t
  have hs : (StaticType.param 0 "T").substitute [.named item []] = .ok (.named item []) :=
    (StaticType.substitute_eq_ok (List.cons_ne_nil _ _)).2 (.param rfl)
  have hu : store.underlying t = .ok (.named item []) := Store.underlying_named.2 ⟨rfl, _, rfl, hs⟩
  have hv : store.viewDecl holder [.named item []] = _ := viewDecl_of rfl rfl hs rfl
  refine ⟨hu, ⟨_, Store.viewStatic_named.2 hv, rfl⟩, .beyond hu rfl (.here underlying_item), ?_⟩
  rw [Store.isInterface_of_view hv]
  rfl

end Declarations
end TypeIdentity
