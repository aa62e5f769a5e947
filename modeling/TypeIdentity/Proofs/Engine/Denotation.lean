import TypeIdentity.Proofs.Literal.Tables
import TypeIdentity.Proofs.Shapes
import TypeIdentity.Proofs.Views

/-! # The literals that host types denote

A host type denotes a literal according to its views: type arguments that are known as text only
denote the literals whose canonical texts they are.  Types of one representation that are the same
denote one literal, because the literal can be told from what counts of the type: for a runtime type
this takes the injectivity of the canonical rendering.
-/
namespace TypeIdentity
open TypeLiteral

/-- The literal of a host type, read off its views. -/
inductive Denotes (store : Store) : HostType → TypeLiteral → Prop
  | shape {t : HostType} (s : Shape (HostType × TypeLiteral))
      (hv : store.view t = .ok (.shape (s.mapChildren Prod.fst)))
      (hc : ∀ c ∈ s.children, Denotes store c.1 c.2) :
      Denotes store t (.shape (s.mapChildren Prod.snd))
  | resolved {t : HostType} {n : NamedView HostType} (args : List (HostType × TypeLiteral))
      (hv : store.view t = .ok (.named n)) (ha : n.args = .resolved (args.map Prod.fst))
      (hc : ∀ c ∈ args, Denotes store c.1 c.2) :
      Denotes store t (.named n.path n.name (args.map Prod.snd))
  | printed {t : HostType} {n : NamedView HostType} {args : List TypeLiteral}
      (hv : store.view t = .ok (.named n)) (hne : args ≠ [])
      (ha : n.args = .printed (",".intercalate (args.map canonical))) :
      Denotes store t (.named n.path n.name args)

namespace TypeLiteral

/-- What counts of the static types that denote a literal. -/
def nominalStatic : TypeLiteral → StaticType
  | shape s => .shape (s.attach.mapChildren fun c => nominalStatic c.1)
  | named path name args =>
    .named ⟨0, path, name, []⟩ (args.attach.map fun c => nominalStatic c.1)
termination_by t => sizeOf t
decreasing_by all_goals exact sizeOf_lt_of_mem_children c.2

/-- What counts of the runtime types that denote a literal. -/
def nominalRuntime : TypeLiteral → RuntimeType
  | shape s => .shape (s.attach.mapChildren fun c => nominalRuntime c.1)
  | named path name args => .named ⟨0, path, (named path name args).name⟩
termination_by t => sizeOf t
decreasing_by exact sizeOf_lt_of_mem_children c.2

theorem nominalStatic_shape (s : Shape TypeLiteral) :
    nominalStatic (shape s) = .shape (s.mapChildren nominalStatic) := by
  rw [nominalStatic, Shape.attach_mapChildren]

theorem nominalStatic_named (path name : String) (args : List TypeLiteral) :
    nominalStatic (named path name args) =
      .named ⟨0, path, name, []⟩ (args.map nominalStatic) := by
  rw [nominalStatic, List.attach_map_val]

theorem nominalRuntime_shape (s : Shape TypeLiteral) :
    nominalRuntime (shape s) = .shape (s.mapChildren nominalRuntime) := by
  rw [nominalRuntime, Shape.attach_mapChildren]

theorem nominalRuntime_named (path name : String) (args : List TypeLiteral) :
    nominalRuntime (named path name args) = .named ⟨0, path, (named path name args).name⟩ := by
  rw [nominalRuntime]

theorem nominalStatic_injective {t u : TypeLiteral} (h : t.nominalStatic = u.nominalStatic) :
    t = u := by
  induction t generalizing u with
  | shape s ih =>
    cases u with
    | named q m bs => rw [nominalStatic_shape, nominalStatic_named] at h; cases h
    | shape s' =>
      rw [nominalStatic_shape, nominalStatic_shape] at h
      obtain ⟨z, rfl, rfl, hz⟩ := Shape.exists_zip (StaticType.shape.inj h)
      refine congrArg shape (Shape.mapChildren_congr fun c hc => ih c.1 ?_ (hz c hc))
      exact Shape.mem_children_map _ hc
  | named p n as ih =>
    cases u with
    | shape s => rw [nominalStatic_shape, nominalStatic_named] at h; cases h
    | named q m bs =>
      rw [nominalStatic_named, nominalStatic_named] at h
      obtain ⟨hd, hargs⟩ := StaticType.named.inj h
      obtain ⟨-, rfl, rfl, -⟩ := Decl.mk.inj hd
      obtain ⟨zs, rfl, rfl, hz⟩ := exists_zip_list hargs
      exact congrArg (named p n) (List.map_congr_left fun c hc =>
        ih c.1 (List.mem_map_of_mem hc) (hz c hc))

theorem toList_intercalate_canonical (args : List TypeLiteral) :
    (",".intercalate (args.map canonical)).toList = writeList id [','] args := by
  have htext : args.map (String.toList ∘ canonical) = args.map (write id) := by
    apply List.map_congr_left
    intro t _
    rw [Function.comp_apply, canonical, render_eq, String.toList_ofList]
  rw [String.toList_intercalate, writeList_eq, List.map_map, htext]
  rfl

theorem toList_name (path : String) {name : String} {args : List TypeLiteral} (h : args ≠ []) :
    (named path name args).name.toList =
      name.toList ++ ('[' :: (",".intercalate (args.map canonical)).toList ++ [']']) := by
  cases args with
  | nil => exact absurd rfl h
  | cons a rest =>
    simp only [TypeLiteral.name, String.toList_append]
    simp

theorem toList_canonical_named (path name : String) (args : List TypeLiteral) :
    (named path name args).canonical.toList =
      (if path = "" then [] else path.toList ++ ['.']) ++ (named path name args).name.toList := by
  rw [canonical, render_eq, String.toList_ofList]
  cases args with
  | nil => rw [write_named_nil, qualified, TypeLiteral.name]; rfl
  | cons a rest =>
    have hne : a :: rest ≠ [] := List.cons_ne_nil a rest
    rw [write_named_args path name hne, qualified, toList_name path hne,
      toList_intercalate_canonical]
    simp

theorem nominalRuntime_injective {t u : TypeLiteral} (ht : t.Portable) (hu : u.Portable)
    (h : t.nominalRuntime = u.nominalRuntime) : t = u := by
  induction t generalizing u with
  | shape s ih =>
    cases u with
    | named q m bs => rw [nominalRuntime_shape, nominalRuntime_named] at h; cases h
    | shape s' =>
      rw [nominalRuntime_shape, nominalRuntime_shape] at h
      obtain ⟨z, rfl, rfl, hz⟩ := Shape.exists_zip (RuntimeType.shape.inj h)
      refine congrArg shape (Shape.mapChildren_congr fun c hc => ?_)
      have hfst : c.1 ∈ (z.mapChildren Prod.fst).children := by
        exact Shape.mem_children_map _ hc
      have hsnd : c.2 ∈ (z.mapChildren Prod.snd).children := by
        exact Shape.mem_children_map _ hc
      exact ih c.1 hfst (ht.inside _ hfst) (hu.inside _ hsnd) (hz c hc)
  | named p n as _ =>
    cases u with
    | shape s => rw [nominalRuntime_shape, nominalRuntime_named] at h; cases h
    | named q m bs =>
      rw [nominalRuntime_named, nominalRuntime_named] at h
      obtain ⟨-, rfl, hname⟩ := Node.mk.inj (RuntimeType.named.inj h)
      refine ht.eq_of_canonical hu (String.toList_inj.1 ?_)
      rw [toList_canonical_named, toList_canonical_named, hname]

end TypeLiteral

/-! ## What counts of a type -/

theorem StaticType.nominal_shape (s : Shape StaticType) :
    (shape s).nominal = .shape (s.mapChildren nominal) := by
  rw [nominal, Shape.attach_mapChildren]

theorem StaticType.nominal_named (d : Decl) (args : List StaticType) :
    (named d args).nominal = .named d.nominal (args.map nominal) := by
  rw [nominal, List.attach_map_val]

variable {store : Store}

theorem splitPrintedName_resolved {name base : String} {args : List RuntimeType}
    (h : Store.splitPrintedName name = .ok (base, .resolved args)) : name = base ∧ args = [] := by
  unfold Store.splitPrintedName at h
  split at h
  · obtain ⟨rfl, ha⟩ := Prod.mk.inj (Except.ok.inj h)
    exact ⟨rfl, (TypeArgs.resolved.inj ha).symm⟩
  · split at h
    · have ha := (Prod.mk.inj (Except.ok.inj h)).2
      cases ha
    · cases h

theorem splitPrintedName_printed {name base text : String}
    (h : Store.splitPrintedName name = .ok (base, .printed text)) :
    name.toList = base.toList ++ ('[' :: text.toList ++ [']']) := by
  unfold Store.splitPrintedName at h
  split at h
  · have ha := (Prod.mk.inj (Except.ok.inj h)).2
    cases ha
  · next c rest hdrop =>
    split at h
    · next hlast =>
      obtain ⟨rfl, ha⟩ := Prod.mk.inj (Except.ok.inj h)
      obtain rfl := TypeArgs.printed.inj ha
      obtain ⟨init, rfl⟩ := List.getLast?_eq_some_iff.1 hlast
      have hhead := List.head?_dropWhile_not (fun c => decide (c ≠ '[')) name.toList
      rw [hdrop] at hhead
      obtain rfl : c = '[' := by simpa using hhead
      have hsplit := List.takeWhile_append_dropWhile (p := fun c => decide (c ≠ '['))
        (l := name.toList)
      rw [hdrop] at hsplit
      rw [String.toList_ofList, String.toList_ofList, List.dropLast_concat]
      exact hsplit.symm
    · cases h

/-- The literal of a static type tells what counts of the type. -/
theorem nominal_static {s : StaticType} {lit : TypeLiteral} (h : Denotes store (.static s) lit) :
    s.nominal = lit.nominalStatic := by
  generalize ht : HostType.static s = t at h
  induction h generalizing s with
  | shape z hv _ ih =>
    subst ht
    obtain ⟨s₀, rfl, hz⟩ := view_static_shape hv
    obtain ⟨y, rfl, rfl, hy⟩ := Shape.exists_zip hz.symm
    rw [StaticType.nominal_shape, nominalStatic_shape]
    simp only [Shape.mapChildren_mapChildren]
    refine congrArg StaticType.shape (Shape.mapChildren_congr fun c hc => ?_)
    exact ih c.2 (Shape.children_mapChildren _ y ▸ List.mem_map_of_mem hc) (hy c hc)
  | resolved args hv ha _ ih =>
    subst ht
    obtain ⟨d, as, v, rfl, hd, hn⟩ := view_static_named hv
    obtain ⟨hpath, hname, hargs⟩ := viewDecl_ok hd
    obtain rfl := View.named.inj hn
    rw [hargs] at ha
    obtain ⟨zs, rfl, rfl, hz⟩ := exists_zip_list (TypeArgs.resolved.inj ha)
    rw [StaticType.nominal_named, nominalStatic_named, Decl.nominal, hpath, hname]
    simp only [List.map_map]
    refine congrArg (StaticType.named _) (List.map_congr_left fun c hc => ?_)
    exact ih c.2 (List.mem_map_of_mem hc) (hz c hc)
  | printed hv _ ha =>
    subst ht
    obtain ⟨d, as, v, rfl, hd, hn⟩ := view_static_named hv
    obtain ⟨-, -, hargs⟩ := viewDecl_ok hd
    obtain rfl := View.named.inj hn
    rw [hargs] at ha
    cases ha

theorem nominal_runtime {r : RuntimeType} {lit : TypeLiteral} (h : Denotes store (.runtime r) lit) :
    r.nominal = lit.nominalRuntime := by
  generalize ht : HostType.runtime r = t at h
  induction h generalizing r with
  | shape z hv _ ih =>
    subst ht
    obtain ⟨s₀, rfl, hz⟩ := view_runtime_shape hv
    obtain ⟨y, rfl, rfl, hy⟩ := Shape.exists_zip hz.symm
    rw [RuntimeType.nominal, Shape.attach_mapChildren, nominalRuntime_shape]
    simp only [Shape.mapChildren_mapChildren]
    refine congrArg RuntimeType.shape (Shape.mapChildren_congr fun c hc => ?_)
    exact ih c.2 (Shape.children_mapChildren _ y ▸ List.mem_map_of_mem hc) (hy c hc)
  | resolved args hv ha _ _ =>
    subst ht
    obtain ⟨node, v, rfl, hnode, hn⟩ := view_runtime_named hv
    obtain ⟨-, -, hsplit, hpath, -, -⟩ := viewNode_ok hnode
    obtain rfl := View.named.inj hn
    cases hargs : v.args with
    | printed text => rw [hargs] at ha; cases ha
    | resolved as =>
      rw [hargs] at ha hsplit
      obtain ⟨hname, rfl⟩ := splitPrintedName_resolved hsplit
      obtain rfl : args = [] := List.map_eq_nil_iff.1 (TypeArgs.resolved.inj ha).symm
      rw [RuntimeType.nominal, Node.nominal, nominalRuntime_named, ← hpath, hname]
      rfl
  | printed hv hne ha =>
    subst ht
    obtain ⟨node, v, rfl, hnode, hn⟩ := view_runtime_named hv
    obtain ⟨-, -, hsplit, hpath, -, -⟩ := viewNode_ok hnode
    obtain rfl := View.named.inj hn
    cases hargs : v.args with
    | resolved as => rw [hargs] at ha; cases ha
    | printed text =>
      rw [hargs] at ha hsplit
      obtain rfl := TypeArgs.printed.inj ha
      have hname := (splitPrintedName_printed hsplit).trans (toList_name v.path hne).symm
      rw [RuntimeType.nominal, Node.nominal, nominalRuntime_named, ← hpath,
        String.toList_inj.1 hname]

/-- Types that are the same denote one literal. -/
theorem Denotes.eq_of_same {t u : HostType} {a b : TypeLiteral} (ha : Denotes store t a)
    (hb : Denotes store u b) (hpa : a.Portable) (hpb : b.Portable) (h : t.same u = true) :
    a = b := by
  have hn := HostType.same_iff.1 h
  cases t with
  | static s =>
    cases u with
    | runtime r => cases hn
    | static s' =>
      have hs := HostType.static.inj hn
      rw [nominal_static ha, nominal_static hb] at hs
      exact nominalStatic_injective hs
  | runtime r =>
    cases u with
    | static s => cases hn
    | runtime r' =>
      have hr := HostType.runtime.inj hn
      rw [nominal_runtime ha, nominal_runtime hb] at hr
      exact nominalRuntime_injective hpa hpb hr

theorem same_static_of_denotes {s s' : StaticType} {a : TypeLiteral}
    (ha : Denotes store (.static s) a) (hb : Denotes store (.static s') a) :
    (HostType.static s).same (.static s') = true := by
  rw [HostType.same_iff, HostType.nominal, HostType.nominal, nominal_static ha, nominal_static hb]

theorem same_runtime_of_denotes {r r' : RuntimeType} {a : TypeLiteral}
    (ha : Denotes store (.runtime r) a) (hb : Denotes store (.runtime r') a) :
    (HostType.runtime r).same (.runtime r') = true := by
  rw [HostType.same_iff, HostType.nominal, HostType.nominal, nominal_runtime ha,
    nominal_runtime hb]

end TypeIdentity
