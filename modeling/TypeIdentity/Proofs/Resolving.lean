import TypeIdentity.Proofs.Engine.Correspondence
import TypeIdentity.Proofs.Guarantee
import TypeIdentity.Resolve

/-! # Resolving literals

A literal resolves exactly when every named type in it is declared with as many parameters as it has
arguments, and the type it resolves to is the one whose declarations are named in the literal.
-/
namespace TypeIdentity
open TypeLiteral

/-- A condition on all declarations in a type. -/
inductive StaticType.EveryDecl (P : Decl → Prop) : StaticType → Prop
  | intro {t : StaticType} (here : ∀ d args, t = .named d args → P d)
      (inside : ∀ c ∈ t.children, EveryDecl P c) : EveryDecl P t

namespace StaticType.EveryDecl
variable {P : Decl → Prop} {t : StaticType}

theorem here {d : Decl} {args : List StaticType} (h : EveryDecl P (.named d args)) : P d := by
  cases h with
  | intro here _ => exact here d args rfl

theorem inside (h : EveryDecl P t) : ∀ c ∈ t.children, EveryDecl P c := by
  cases h with
  | intro _ inside => exact inside

end StaticType.EveryDecl

theorem Decl.apply_eq_ok {d : Decl} {args : List StaticType} {t : StaticType} :
    d.apply args = .ok t ↔ args.length = d.arity ∧ t = .named d args := by
  unfold Decl.apply
  split
  · unfold StaticType.instantiate
    split
    · next h => simp [h, eq_comm]
    · next h => simp [h]
  · next hg =>
    have hp : d.params = [] := by simpa [Decl.isGeneric] using hg
    have ha : d.arity = 0 := by rw [Decl.arity, hp, List.length_nil]
    split
    · next h => simp [h, ha, eq_comm]
    · next h => simp [ha, h]

namespace Packages
variable {packages : Packages}

/-- The packages that come about by declaring types. -/
inductive Reachable : Packages → Prop
  | empty : Reachable .empty
  | add {packages : Packages} (path : String) (h : Reachable packages) :
      Reachable (packages.add path)
  | declare {packages : Packages} (path name : String) (params : List String) (store : Store)
      (h : Reachable packages) : Reachable (packages.declare path name params store).2

/-- Found in one of the packages. -/
def Holds (packages : Packages) (path name : String) (d : Decl) : Prop :=
  ∃ package, packages.byPath[path]? = some package ∧ package[name]? = some d

/-- Every declaration is found under its own path and name. -/
def Filed (packages : Packages) : Prop :=
  ∀ path name d, packages.Holds path name d → d.path = path ∧ d.name = name

theorem Filed.add (h : packages.Filed) (path : String) : (packages.add path).Filed := by
  rintro p n d ⟨package, hp, hd⟩
  rw [Packages.add, Std.HashMap.getElem?_insertIfNew] at hp
  split at hp
  · obtain rfl := Option.some.inj hp
    simp at hd
  · exact h p n d ⟨package, hp, hd⟩

theorem Filed.declare (h : packages.Filed) (path name : String) (params : List String)
    (store : Store) : (packages.declare path name params store).2.Filed := by
  have ha := h.add path
  rw [Packages.declare]
  split
  · exact ha
  · rintro p n d ⟨package, hp, hd⟩
    simp only [Std.HashMap.getElem?_insert] at hp
    split at hp
    · next hpath =>
      obtain rfl := Option.some.inj hp
      obtain rfl := beq_iff_eq.1 hpath
      rw [Std.HashMap.getElem?_insert] at hd
      split at hd
      · next hname =>
        obtain rfl := Option.some.inj hd
        exact ⟨rfl, beq_iff_eq.1 hname⟩
      · rw [Std.HashMap.getD_eq_getD_getElem?] at hd
        cases hp : (packages.add path).byPath[path]? with
        | none => simp [hp] at hd
        | some package => exact ha path n d ⟨package, hp, by simpa [hp] using hd⟩
    · exact ha p n d ⟨package, hp, hd⟩

theorem Reachable.filed (h : packages.Reachable) : packages.Filed := by
  induction h with
  | empty =>
    rintro path name d ⟨package, hp, -⟩
    simp [Packages.empty] at hp
  | add path _ ih => exact ih.add path
  | declare path name params store _ ih => exact ih.declare path name params store

theorem holds_declare {path name : String} {params : List String} {store after : Store} {d : Decl}
    (h : (packages.declare path name params store).1 = .ok (d, after)) :
    (packages.declare path name params store).2.Holds path name d := by
  rw [Packages.declare] at h ⊢
  split at h
  · cases h
  · next hnew =>
    obtain ⟨rfl, -⟩ := Prod.mk.inj (Except.ok.inj h)
    rw [if_neg hnew]
    exact ⟨_, Std.HashMap.getElem?_insert_self, Std.HashMap.getElem?_insert_self⟩

/-- A declaration that is found in a package, or the predeclared one. -/
def Knows (packages : Packages) (d : Decl) : Prop :=
  d = .error ∨ ∃ path name, packages.Holds path name d

/-- A name is declared with as many parameters as the node has arguments. -/
def NodeResolves (packages : Packages) : TypeLiteral → Prop
  | .named path name args => ∃ d, packages.lookup path name = .ok d ∧ d.arity = args.length
  | .shape _ => True

theorem lookup_eq_ok {path name : String} {d : Decl} (h : packages.lookup path name = .ok d) :
    d = .error ∧ path = "" ∧ name = "error" ∨ packages.Holds path name d := by
  unfold lookup at h
  split at h
  · next hp => exact .inl ⟨(Except.ok.inj h).symm, hp⟩
  · right
    unfold find at h
    cases hp : packages.byPath[path]? with
    | none => simp [hp] at h
    | some package =>
      cases hd : package[name]? with
      | none => simp [hp, hd] at h
      | some e =>
        simp [hp, hd] at h
        exact ⟨package, hp, h ▸ hd⟩

theorem known_of_lookup (hf : packages.Filed) {path name : String} {d : Decl}
    (h : packages.lookup path name = .ok d) :
    packages.Knows d ∧ d.nominal = ⟨0, path, name, []⟩ := by
  rcases lookup_eq_ok h with ⟨rfl, rfl, rfl⟩ | hd
  · exact ⟨.inl rfl, rfl⟩
  · obtain ⟨rfl, rfl⟩ := hf _ _ _ hd
    exact ⟨.inr ⟨_, _, hd⟩, rfl⟩

theorem lookup_of_holds {path name : String} {d : Decl} (h : packages.Holds path name d)
    (hn : ¬(path = "" ∧ name = "error")) : packages.lookup path name = .ok d := by
  obtain ⟨package, hp, hd⟩ := h
  simp [lookup, hn, find, hp, hd]

theorem resolve_shape (s : Shape TypeLiteral) :
    packages.resolve (.shape s) = .shape <$> s.traverse packages.resolve := by
  rw [resolve, Shape.attach_traverse packages.resolve, map_eq_pure_bind]

theorem resolve_named (path name : String) (args : List TypeLiteral) :
    packages.resolve (.named path name args) =
      packages.lookup path name >>= fun d => args.mapM packages.resolve >>= d.apply := by
  rw [resolve, attach_mapM packages.resolve]

/-- What resolving makes of a literal. -/
structure Rebuilt (packages : Packages) (l : TypeLiteral) (t : StaticType) : Prop where
  resolves : l.Everywhere packages.NodeResolves
  nominal : t.nominal = l.nominalStatic
  known : t.EveryDecl packages.Knows

/-- A reference with as many arguments as its declaration has parameters has a literal form. -/
theorem ofStatic_named {d : Decl} {args : List StaticType} (h : args.length = d.arity) :
    HostType.ofStatic (.named d args) = .ok (.static (.named d args)) := by
  have hg : (d.isGeneric && args.isEmpty) = false := by
    cases args with
    | cons => simp
    | nil =>
      have hp : d.params = [] := List.length_eq_zero_iff.1 h.symm
      simp [Decl.isGeneric, hp]
  simp [HostType.ofStatic, StaticType.requireLiteralForm, StaticType.unsupported?, hg]

theorem rebuilt_shape {z : Shape (TypeLiteral × StaticType)}
    (h : ∀ c ∈ z.children, packages.Rebuilt c.1 c.2) :
    packages.Rebuilt (.shape (z.mapChildren Prod.fst)) (.shape (z.mapChildren Prod.snd)) where
  resolves := by
    refine .intro trivial fun c hc => ?_
    obtain ⟨p, hp, rfl⟩ := Shape.exists_of_mem_children hc
    exact (h p hp).resolves
  nominal := by
    rw [StaticType.nominal_shape, nominalStatic_shape, Shape.mapChildren_mapChildren,
      Shape.mapChildren_mapChildren]
    exact congrArg StaticType.shape (Shape.mapChildren_congr fun c hc => (h c hc).nominal)
  known := by
    refine .intro (fun _ _ he => by cases he) fun c hc => ?_
    obtain ⟨p, hp, rfl⟩ := Shape.exists_of_mem_children hc
    exact (h p hp).known

theorem rebuilt_named {path name : String} {d : Decl} {zs : List (TypeLiteral × StaticType)}
    (hl : packages.lookup path name = .ok d) (hn : d.nominal = ⟨0, path, name, []⟩)
    (hk : packages.Knows d) (ha : zs.length = d.arity)
    (h : ∀ c ∈ zs, packages.Rebuilt c.1 c.2) :
    packages.Rebuilt (.named path name (zs.map Prod.fst)) (.named d (zs.map Prod.snd)) where
  resolves := by
    refine .intro ⟨d, hl, by rw [List.length_map, ha]⟩ fun c hc => ?_
    obtain ⟨p, hp, rfl⟩ := List.mem_map.1 hc
    exact (h p hp).resolves
  nominal := by
    rw [StaticType.nominal_named, nominalStatic_named, List.map_map, List.map_map, hn]
    exact congrArg _ (List.map_congr_left fun c hc => (h c hc).nominal)
  known := by
    refine .intro (fun _ _ he => (StaticType.named.inj he).1 ▸ hk) fun c hc => ?_
    obtain ⟨p, hp, rfl⟩ := List.mem_map.1 hc
    exact (h p hp).known

theorem rebuilt_of_resolve (hf : packages.Filed) {l : TypeLiteral} {t : StaticType}
    (h : packages.resolve l = .ok t) : packages.Rebuilt l t := by
  induction l generalizing t with
  | shape s ih =>
    rw [resolve_shape] at h
    refine Guarantee.except.map (Guarantee.except.traverse fun c hc u hu => ih c hc hu) ?_ t h
    rintro _ ⟨z, rfl, rfl, hz⟩
    exact rebuilt_shape hz
  | named path name args ih =>
    rw [resolve_named] at h
    cases hl : packages.lookup path name with
    | error e => rw [hl] at h; cases h
    | ok d =>
      rw [hl] at h
      have hargs : Guarantee.except.ensures (args.mapM packages.resolve >>= d.apply)
          (packages.Rebuilt (.named path name args)) := by
        refine Guarantee.except.bind (Guarantee.except.mapM_pairs fun c hc u hu => ih c hc hu) ?_
        rintro _ ⟨zs, rfl, rfl, hz⟩ u hu
        obtain ⟨ha, rfl⟩ := Decl.apply_eq_ok.1 hu
        rw [List.length_map] at ha
        obtain ⟨hk, hn⟩ := known_of_lookup hf hl
        exact rebuilt_named hl hn hk ha hz
      exact hargs t h

theorem resolve_of_resolves {l : TypeLiteral} (h : l.Everywhere packages.NodeResolves) :
    ∃ t, packages.resolve l = .ok t := by
  have : Nonempty StaticType := ⟨.error⟩
  induction l with
  | shape s ih =>
    have hall : ∀ c ∈ s.children, ∃ t, packages.resolve c = .ok t :=
      fun c hc => ih c hc (h.inside c hc)
    choose! f hf using hall
    exact ⟨_, (resolve_shape s).trans (Outcome.except.map _ (Outcome.except.traverse hf))⟩
  | named path name args ih =>
    have hall : ∀ c ∈ args, ∃ t, packages.resolve c = .ok t := fun c hc => ih c hc (h.inside c hc)
    choose! f hf using hall
    obtain ⟨d, hl, ha⟩ := h.here
    have happly : d.apply (args.map f) = .ok (.named d (args.map f)) :=
      Decl.apply_eq_ok.2 ⟨by rw [List.length_map, ha], rfl⟩
    have hargs : Outcome.except.returns (args.mapM packages.resolve >>= d.apply) _ :=
      Outcome.except.bind (Outcome.except.mapM hf) happly
    exact ⟨_, (resolve_named path name args).trans (Outcome.except.bind hl hargs)⟩

theorem ofStatic_of_resolve {l : TypeLiteral} {t : StaticType} (h : packages.resolve l = .ok t) :
    HostType.ofStatic t = .ok (.static t) := by
  have hform : Guarantee.except.ensures (packages.resolve l) fun t =>
      HostType.ofStatic t = .ok (.static t) := by
    cases l with
    | shape s =>
      have hany : Guarantee.except.ensures (s.traverse packages.resolve) fun _ => True :=
        fun _ _ => trivial
      rw [resolve_shape]
      exact Guarantee.except.map hany fun _ _ => rfl
    | named path name args =>
      have hlookup : Guarantee.except.ensures (packages.lookup path name) fun _ => True :=
        fun _ _ => trivial
      have hargs : Guarantee.except.ensures (args.mapM packages.resolve) fun _ => True :=
        fun _ _ => trivial
      rw [resolve_named]
      refine Guarantee.except.bind hlookup fun d _ => Guarantee.except.bind hargs fun ts _ u hu => ?_
      obtain ⟨ha, rfl⟩ := Decl.apply_eq_ok.1 hu
      exact ofStatic_named ha
  exact hform t h

end Packages
end TypeIdentity
