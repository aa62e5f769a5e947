import TypeIdentity.Proofs.Literal.Sharing
import TypeIdentity.Proofs.Resolving

/-! # What literals are found

The engine finds the literal of a static type by interning the literals of its components, so it
gives a component away only if another one prints alike.  Otherwise, unless it fails, it finds a
literal in which nothing of the type is lost but the declarations.
-/
namespace TypeIdentity
open TypeLiteral

namespace StaticType

/-- What counts of a type tells its literal. -/
theorem literal_of_nominal {t : StaticType} {l : TypeLiteral} (h : t.nominal = l.nominalStatic) :
    t.literal = l := by
  induction l generalizing t with
  | shape s ih =>
    rw [nominalStatic_shape] at h
    cases t with
    | shape s' =>
      rw [nominal_shape] at h
      obtain ⟨z, rfl, rfl, hz⟩ := Shape.exists_zip (shape.inj h)
      rw [literal_shape, Shape.mapChildren_mapChildren]
      refine congrArg TypeLiteral.shape (Shape.mapChildren_congr fun c hc => ih c.2 ?_ (hz c hc))
      exact Shape.mem_children_map _ hc
    | named d args => rw [nominal_named] at h; cases h
    | param | tuple | union => rw [nominal] at h; cases h
  | named path name args ih =>
    rw [nominalStatic_named] at h
    cases t with
    | named d as =>
      rw [nominal_named] at h
      obtain ⟨hd, hargs⟩ := named.inj h
      obtain ⟨-, rfl, rfl, -⟩ := Decl.mk.inj hd
      obtain ⟨zs, rfl, rfl, hz⟩ := exists_zip_list hargs
      rw [literal_named, List.map_map]
      exact congrArg (TypeLiteral.named d.path d.name) (List.map_congr_left fun c hc =>
        ih c.2 (List.mem_map_of_mem hc) (hz c hc))
    | shape s => rw [nominal_shape] at h; cases h
    | param | tuple | union => rw [nominal] at h; cases h

end StaticType

namespace Engine.Memory
variable {Q : TypeLiteral → Prop} {root : TypeLiteral} {store : Store}

/-- A literal that is right for a static type: nothing is lost but the declarations, and what is to
hold of its nodes holds. -/
def Fits (Q : TypeLiteral → Prop) (t : StaticType) (l : TypeLiteral) : Prop :=
  t.nominal = l.nominalStatic ∧ l.Everywhere Q

/-- What a memory holds while the literal of one static type is looked for. -/
structure Tracks (Q : TypeLiteral → Prop) (root : TypeLiteral) (memory : Memory) : Prop where
  literals : ∀ id l, memory.tables.literals.get? id = some l → l.canonical = id ∧ root.Within l
  identities : ∀ t l, memory.identities[HostType.static t]? = some l → Fits Q t l

theorem tracks_fresh (Q : TypeLiteral → Prop) (root : TypeLiteral) (config : Config) :
    Tracks Q root { config } where
  literals := by
    intro id l h
    simp [LiteralTable.empty, LiteralTable.get?] at h
  identities := by simp

def tracking (Q : TypeLiteral → Prop) (root : TypeLiteral) : Guarantee EngineM :=
  .maintaining (Tracks Q root)

theorem ensures_count (f : Counters → Counters) :
    (tracking Q root).ensures (count f) fun _ => True := by
  intro m hm a after he
  obtain ⟨-, rfl⟩ := Prod.mk.inj he
  exact ⟨trivial, hm.literals, hm.identities⟩

/-- Of components that print alike there is only one. -/
theorem ensures_share (hd : root.Distinct) {l : TypeLiteral} (hl : root.Within l) :
    (tracking Q root).ensures (share l) (· = l) := by
  intro m hm a after he
  rw [share_eq] at he
  obtain ⟨ha, rfl⟩ := Prod.mk.inj he
  obtain rfl := Except.ok.inj ha
  rw [LiteralTable.intern]
  cases hg : m.tables.literals.get? l.canonical with
  | some stored =>
    have hkey : m.tables.literals.entries[l.canonical]? = some stored := hg
    obtain ⟨hc, hw⟩ := hm.literals _ _ hg
    simp only [hkey]
    exact ⟨hd.eq hw hl hc, hm⟩
  | none =>
    have hkey : m.tables.literals.entries[l.canonical]? = none := hg
    simp only [hkey]
    refine ⟨trivial, ⟨fun id k hk => ?_, hm.identities⟩⟩
    rw [LiteralTable.adds_insert hg l id, Option.or_eq_some_iff] at hk
    rcases hk with hk | ⟨-, hk⟩
    · exact hm.literals id k hk
    · split at hk
      · next hid => exact Option.some.inj hk ▸ ⟨hid, hl⟩
      · cases hk

theorem ensures_remember {t : StaticType} {l : TypeLiteral} (h : Fits Q t l) :
    (tracking Q root).ensures (remember (.static t) l) (Fits Q t) := by
  intro m hm a after he
  rw [remember_eq] at he
  obtain ⟨ha, rfl⟩ := Prod.mk.inj he
  obtain rfl := Except.ok.inj ha
  constructor
  · cases hk : m.identities[HostType.static t]? with
    | none => exact h
    | some known => exact hm.identities t known hk
  · refine ⟨hm.literals, fun u k hk => ?_⟩
    have hk' : (m.identities.insertIfNew (HostType.static t) l)[HostType.static u]? = some k := hk
    rw [Std.HashMap.getElem?_insertIfNew] at hk'
    split at hk'
    · next hnew =>
      have hsame : t.nominal = u.nominal := HostType.static.inj (HostType.same_iff.1 hnew.1)
      obtain rfl := Option.some.inj hk'
      exact ⟨hsame ▸ h.1, h.2⟩
    · exact hm.identities u k hk'

/-- Looking up gives a fitting literal, if building does. -/
theorem ensures_retrieve {t : StaticType} {build : EngineM TypeLiteral} (hd : root.Distinct)
    (hw : root.Within t.literal) (hb : (tracking Q root).ensures build (Fits Q t)) :
    (tracking Q root).ensures (retrieve (.static t) build) (Fits Q t) := by
  refine Guarantee.maintaining_get fun m hm => ?_
  cases hk : m.identity? (.static t) with
  | some known =>
    rw [identity?_eq] at hk
    refine (tracking Q root).bind (ensures_count _) fun _ _ => ?_
    exact (tracking Q root).pure (hm.identities t known hk)
  | none =>
    refine (tracking Q root).bind (ensures_count _) fun _ _ => ?_
    refine (tracking Q root).bind hb fun l hl => ?_
    have hwl : root.Within l := StaticType.literal_of_nominal hl.1 ▸ hw
    refine (tracking Q root).bind (ensures_share hd hwl) ?_
    rintro _ rfl
    exact ensures_remember hl

theorem ensures_throw {α : Type} (e : Error) (post : α → Prop) :
    (tracking Q root).ensures (throw e) post := by
  intro m hm a after he
  cases (Prod.mk.inj he).1

/-- What holds of all nodes of a literal, given what holds of the declarations in the type. -/
structure Admits (K : Decl → Prop) (Q : TypeLiteral → Prop) : Prop where
  shape : ∀ s : Shape TypeLiteral, Q (.shape s)
  named : ∀ {d : Decl} {ls : List TypeLiteral}, K d → ls.length = d.arity →
    NameWellFormed id d.path d.name ls → Q (.named d.path d.name ls)

theorem fits_shape {z : Shape (StaticType × TypeLiteral)}
    (here : Q (.shape (z.mapChildren Prod.snd))) (h : ∀ c ∈ z.children, Fits Q c.1 c.2) :
    Fits Q (.shape (z.mapChildren Prod.fst)) (.shape (z.mapChildren Prod.snd)) := by
  constructor
  · rw [StaticType.nominal_shape, nominalStatic_shape, Shape.mapChildren_mapChildren,
      Shape.mapChildren_mapChildren]
    exact congrArg StaticType.shape (Shape.mapChildren_congr fun c hc => (h c hc).1)
  · refine .intro here fun c hc => ?_
    obtain ⟨p, hp, rfl⟩ := Shape.exists_of_mem_children hc
    exact (h p hp).2

theorem fits_named {d : Decl} {zs : List (StaticType × TypeLiteral)}
    (here : Q (.named d.path d.name (zs.map Prod.snd))) (h : ∀ c ∈ zs, Fits Q c.1 c.2) :
    Fits Q (.named d (zs.map Prod.fst)) (.named d.path d.name (zs.map Prod.snd)) := by
  constructor
  · rw [StaticType.nominal_named, nominalStatic_named, List.map_map, List.map_map]
    exact congrArg _ (List.map_congr_left fun c hc => (h c hc).1)
  · refine .intro here fun c hc => ?_
    obtain ⟨p, hp, rfl⟩ := List.mem_map.1 hc
    exact (h p hp).2

/-! ### What is built for a static type -/

theorem build_shape (s : Shape StaticType) : build store (.static (.shape s)) =
    .shape <$> s.traverse fun c => literalFor store (.static c) := by
  have hview : store.view (.static (.shape s)) = .ok (.shape (s.mapChildren .static)) := rfl
  rw [build, hview]
  simp only [Shape.traverse_mapChildren]

theorem build_named {d : Decl} {args : List StaticType} {v : NamedView StaticType}
    (hv : store.viewDecl d args = .ok v) : build store (.static (.named d args)) =
      .named d.path d.name <$> args.mapM fun c => literalFor store (.static c) := by
  obtain ⟨hpath, hname, hargs⟩ := viewDecl_ok hv
  rw [build, view_static_of hv]
  simp only [View.map, hargs, TypeArgs.map, List.mapM_map, hpath, hname]
  rfl

theorem build_error {d : Decl} {args : List StaticType} {e : Error}
    (hv : store.viewDecl d args = .error e) :
    build store (.static (.named d args)) = throw e := by
  have hview : store.view (.static (.named d args)) = .error e := by
    simp [Store.view, Store.viewStatic, hv, bind, Except.bind]
  rw [build, hview]

/-- The engine fails or finds a literal that fits. -/
theorem ensures_literalFor {K : Decl → Prop} (hq : Admits K Q) (hw : root.WellFormed)
    (hd : root.Distinct) {t : StaticType} (ht : root.Within t.literal) (hk : t.EveryDecl K) :
    (tracking Q root).ensures (literalFor store (.static t)) (Fits Q t) := by
  induction t with
  | shape s ih =>
    have hchildren : ∀ c ∈ s.children,
        (tracking Q root).ensures (literalFor store (.static c)) (Fits Q c) := by
      intro c hc
      refine ih c hc (ht.child ?_) (hk.inside c hc)
      rw [StaticType.literal_shape]
      exact Shape.mem_children_map _ hc
    rw [literalFor_eq, build_shape]
    refine ensures_retrieve hd ht ?_
    refine (tracking Q root).map ((tracking Q root).traverse hchildren) ?_
    rintro _ ⟨z, rfl, rfl, hz⟩
    exact fits_shape (hq.shape _) hz
  | named d args ih =>
    have hargs : ∀ c ∈ args,
        (tracking Q root).ensures (literalFor store (.static c)) (Fits Q c) := by
      intro c hc
      refine ih c hc (ht.child ?_) (hk.inside c hc)
      rw [StaticType.literal_named]
      exact List.mem_map_of_mem hc
    rw [literalFor_eq]
    refine ensures_retrieve hd ht ?_
    cases hv : store.viewDecl d args with
    | error e =>
      rw [build_error hv]
      exact ensures_throw e _
    | ok v =>
      have harity := arity_of_viewDecl hv
      have hnode : NameWellFormed id d.path d.name (args.map StaticType.literal) :=
        (StaticType.literal_named d args ▸ hw.within ht).here
      rw [build_named hv]
      refine (tracking Q root).map ((tracking Q root).mapM_pairs hargs) ?_
      rintro _ ⟨zs, rfl, rfl, hz⟩
      refine fits_named (hq.named hk.here (by simpa using harity) ?_) hz
      simpa only [NameWellFormed, List.map_eq_nil_iff] using hnode
  | param | tuple | union =>
    rw [literalFor_eq]
    exact ensures_retrieve hd ht (ensures_throw _ _)

/-- The literal found for a type is its own. -/
theorem fits_of_literalFor {K : Decl → Prop} (hq : Admits K Q) {t : StaticType} {l : TypeLiteral}
    (hk : t.EveryDecl K) (hw : t.literal.WellFormed) (hd : t.literal.Distinct) {config : Config}
    (h : (literalFor store (.static t) { config }).1 = .ok l) : Fits Q t l :=
  (ensures_literalFor hq hw hd .self hk { config } (tracks_fresh Q t.literal config) l
    (literalFor store (.static t) { config }).2 (Prod.ext h rfl)).1

end Engine.Memory
end TypeIdentity
