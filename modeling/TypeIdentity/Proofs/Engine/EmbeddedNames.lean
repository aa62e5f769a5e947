import TypeIdentity.Proofs.Engine.FirstFinds
import TypeIdentity.Proofs.Engine.Identity

/-! # Names of embedded fields

A field that embeds a type is called after it: a static type by its declaration, a runtime type by
its printed name, a literal by its own name.  So structs that embed corresponding types have one
literal, and this is read back from its text though the text does not show these names.
-/
namespace TypeIdentity
open TypeLiteral Engine Memory
variable {store : Store}

namespace TypeLiteral
variable {t : TypeLiteral}

theorem embeddedName_named {path name : String} {args : List TypeLiteral}
    (h : t.pointee = named path name args) : t.embeddedName = name := by
  rw [embeddedName, h]

theorem embeddedName_basic {b : BasicType} (h : t.pointee = shape (.basic b))
    (hb : b ≠ .unsafePointer) : t.embeddedName = b.name := by
  rw [embeddedName, h]
  cases b
  case unsafePointer => exact absurd rfl hb
  all_goals decide +kernel

theorem Everywhere.pointee {P : TypeLiteral → Prop} (h : t.Everywhere P) :
    t.pointee.Everywhere P := by
  unfold TypeLiteral.pointee
  split
  · exact h.inside _ (List.mem_singleton_self _)
  · exact h

end TypeLiteral

namespace StaticType
variable {s : StaticType} {f : Field StaticType}

/-- What is embedded is a named type, a basic type or a pointer to one, and the field has its name. -/
theorem embedded_ok (h : s.embedded = .ok f) : f = ⟨f.name, s, "", true⟩ ∧
    ((∃ d args, s.pointee = named d args ∧ f.name = d.name) ∨
      ∃ b, s.pointee = shape (.basic b) ∧ f.name = b.name) := by
  unfold embedded at h
  split at h
  next d args hp =>
    obtain rfl := Except.ok.inj h
    exact ⟨rfl, .inl ⟨d, args, hp, rfl⟩⟩
  next b hp =>
    obtain rfl := Except.ok.inj h
    exact ⟨rfl, .inr ⟨b, hp, rfl⟩⟩
  · cases h

theorem pointee_literal (s : StaticType) : s.literal.pointee = s.pointee.literal := by
  cases s with
  | shape z =>
    cases z <;> simp only [literal_shape, Shape.mapChildren, pointee, TypeLiteral.pointee]
  | named d args => simp only [literal_named, pointee, TypeLiteral.pointee]
  | param | tuple | union => simp only [literal, pointee, TypeLiteral.pointee, TypeLiteral.any]

end StaticType

namespace Engine.Memory

/-- The literal that is found first for a type points to the one found for what the type points to. -/
theorem Blank.look_pointee {m m' : Memory} {s : StaticType} {l : TypeLiteral} (hm : m.Blank)
    (h : look store s m = (.ok l, m')) :
    (∀ d args, s.pointee = .named d args → ∃ ls, l.pointee = .named d.path d.name ls) ∧
      ∀ b, s.pointee = .shape (.basic b) → l.pointee = .shape (.basic b) := by
  unfold StaticType.pointee
  split
  next e =>
    obtain ⟨elem, after, he, rfl⟩ := hm.look_pointer h
    constructor
    · rintro d args rfl
      exact hm.missed.look_named he
    · rintro b rfl
      exact hm.missed.look_basic he
  · constructor
    · rintro d args rfl
      obtain ⟨ls, rfl⟩ := hm.look_named h
      exact ⟨ls, rfl⟩
    · rintro b rfl
      obtain rfl := hm.look_basic h
      rfl

end Engine.Memory

/-! ## One embedded type -/

theorem name_of_literalFor {s : StaticType} {f : Field StaticType} {config : Config}
    {l : TypeLiteral} (hf : s.embedded = .ok f) (hs : s.pointee ≠ .shape (.basic .unsafePointer))
    (h : (literalFor store (.static s) { config }).1 = .ok l) : f.name = l.embeddedName := by
  obtain ⟨hnamed, hbasic⟩ := (blank_fresh config).look_pointee (Prod.ext h rfl)
  rcases (StaticType.embedded_ok hf).2 with ⟨d, args, hp, hname⟩ | ⟨b, hp, hname⟩
  · obtain ⟨ls, hl⟩ := hnamed d args hp
    rw [hname, embeddedName_named hl]
  · rw [hname, embeddedName_basic (hbasic b hp)]
    rintro rfl
    exact hs hp

theorem Corresponds.pointee {s : StaticType} {r : RuntimeType} (h : Corresponds store s r) :
    Corresponds store s.pointee r.pointee := by
  cases h with
  | shape z hc =>
    cases z with
    | pointer e => exact hc e (List.mem_singleton_self e)
    | _ => exact .shape _ hc
  | named hv hc hbody hpath hname => exact .named hv hc hbody hpath hname

/-- A node is called after the declaration that it corresponds to, whose name has no bracket. -/
theorem name_of_corresponds {s : StaticType} {r : RuntimeType} {d : Decl} {args : List StaticType}
    (h : Corresponds store s r) (hp : s.pointee = .named d args) (hn : '[' ∉ d.name.toList) :
    r.embedded.name = d.name := by
  have hpointee := h.pointee
  rw [hp] at hpointee
  generalize hr : r.pointee = p at hpointee
  cases hpointee with
  | @named _ _ _ n _ _ _ _ hname =>
    have hlist : n.name.toList.takeWhile (· ≠ '[') = d.name.toList := by
      rw [hname, takeWhile_name _ _ hn]
    rw [RuntimeType.embedded, hr]
    simp only [RuntimeType.name, hlist, String.ofList_toList]

/-! ## Structs -/

/-- A field that embeds a type, with any tag. -/
inductive Embeds : Field StaticType → Prop
  | intro {s : StaticType} {f : Field StaticType} (tag : String) (hf : s.embedded = .ok f) :
      Embeds { f with tag }

/-- Two fields with one tag that embed corresponding types. -/
inductive EmbedAlike (store : Store) : Field StaticType → Field RuntimeType → Prop
  | intro {s : StaticType} {r : RuntimeType} {f : Field StaticType} (tag : String)
      (hf : s.embedded = .ok f) (hr : Corresponds store s r) :
      EmbedAlike store { f with tag } { r.embedded with tag }

variable {fs : List (Field StaticType)} {gs : List (Field RuntimeType)}

theorem EmbedAlike.embeds {f : Field StaticType} {g : Field RuntimeType}
    (h : EmbedAlike store f g) : Embeds f := by
  cases h with
  | intro tag hf => exact .intro tag hf

theorem EmbedAlike.viewable {f : Field StaticType} {g : Field RuntimeType}
    (h : EmbedAlike store f g) : Viewable store f.type := by
  cases h with
  | intro tag hf hr =>
    rw [(StaticType.embedded_ok hf).1]
    exact hr.viewable

/-- The field of a literal that comes of embedding a type has the name that is read back. -/
theorem Embeds.wellFormed {f : Field StaticType} (h : Embeds f)
    (hu : f.type.pointee ≠ .shape (.basic .unsafePointer)) (hw : f.type.literal.WellFormed) :
    FieldWellFormed ⟨f.name, f.type.literal, f.tag, f.embedded⟩ := by
  cases h with
  | @intro s f tag hf =>
    obtain ⟨hf, hname⟩ := StaticType.embedded_ok hf
    rw [hf] at hu hw ⊢
    have hp := s.pointee_literal
    rcases hname with ⟨d, args, hs, hname⟩ | ⟨b, hs, hname⟩
    · rw [hs, StaticType.literal_named] at hp
      refine ⟨?_, fun _ => ⟨?_, ?_⟩⟩
      · have hnode : NameWellFormed id d.path d.name (args.map StaticType.literal) :=
          (hp ▸ hw.pointee).here
        rw [hname]
        rcases hnode with ⟨-, he, -⟩ | ⟨-, -, hi, -⟩
        · rw [he]
          decide
        · exact hi
      · rw [Embeddable, hp]
        trivial
      · rw [hname, embeddedName_named hp]
    · rw [hs, StaticType.literal_shape, Shape.mapChildren] at hp
      have hb : b ≠ .unsafePointer := by
        rintro rfl
        exact hu hs
      refine ⟨?_, fun _ => ⟨?_, ?_⟩⟩
      · rw [hname]
        cases b
        case unsafePointer => exact absurd rfl hb
        all_goals decide
      · rw [Embeddable, hp]
        trivial
      · rw [hname, embeddedName_basic hp hb]

theorem fields_of_embedAlike (h : List.Forall₂ (EmbedAlike store) fs gs)
    (hn : ∀ f ∈ fs, ∃ d args, f.type.pointee = .named d args ∧ '[' ∉ d.name.toList) :
    ∃ zs : List (Field (StaticType × RuntimeType)),
      zs.map (fun z => (⟨z.name, z.type.1, z.tag, z.embedded⟩ : Field StaticType)) = fs ∧
      zs.map (fun z => (⟨z.name, z.type.2, z.tag, z.embedded⟩ : Field RuntimeType)) = gs ∧
      ∀ z ∈ zs, Corresponds store z.type.1 z.type.2 := by
  induction h with
  | nil => exact ⟨[], rfl, rfl, by simp⟩
  | cons h _ ih =>
    obtain ⟨zs, rfl, rfl, hz⟩ := ih fun f hf => hn f (List.mem_cons_of_mem _ hf)
    have hfirst := hn _ (List.mem_cons_self ..)
    cases h with
    | @intro s r f tag hf hr =>
      obtain ⟨hf, hname⟩ := StaticType.embedded_ok hf
      obtain ⟨d, args, hp, hd⟩ := hfirst
      rw [hf] at hp
      have hsame : r.embedded.name = f.name := by
        rw [name_of_corresponds hr hp hd]
        rcases hname with ⟨e, bs, he, hname⟩ | ⟨b, hb, -⟩
        · rw [hname, (StaticType.named.inj (hp.symm.trans he)).1]
        · cases hp.symm.trans hb
      refine ⟨⟨f.name, (s, r), tag, true⟩ :: zs, ?_, ?_, ?_⟩
      · rw [List.map_cons, hf]
      · rw [List.map_cons, ← hsame]
        rfl
      · intro z hm
        rcases List.mem_cons.1 hm with rfl | hm
        · exact hr
        · exact hz z hm

theorem StaticType.literal_struct (fs : List (Field StaticType)) :
    (StaticType.shape (.struct fs)).literal = TypeLiteral.shape
      (.struct (fs.map fun f => ⟨f.name, f.type.literal, f.tag, f.embedded⟩)) := by
  rw [literal_shape]
  rfl

theorem everywhere_struct {P : TypeLiteral → Prop}
    (here : P (StaticType.shape (.struct fs)).literal)
    (h : ∀ f ∈ fs, f.type.literal.Everywhere P) :
    (StaticType.shape (.struct fs)).literal.Everywhere P := by
  refine .intro here fun c hc => ?_
  rw [StaticType.literal_struct] at hc
  obtain ⟨g, hg, rfl⟩ := List.mem_map.1 hc
  obtain ⟨f, hf, rfl⟩ := List.mem_map.1 hg
  exact h f hf

theorem forall_of_embedAlike (h : List.Forall₂ (EmbedAlike store) fs gs) :
    ∀ f ∈ fs, Embeds f ∧ Viewable store f.type := by
  induction h with
  | nil => simp
  | cons h _ ih => exact List.forall_mem_cons.2 ⟨⟨h.embeds, h.viewable⟩, ih⟩

/-- A struct has a literal that can be read back if the types that it embeds have. -/
theorem legible_of_embeds (h : ∀ f ∈ fs, Embeds f)
    (hu : ∀ f ∈ fs, f.type.pointee ≠ .shape (.basic .unsafePointer))
    (hw : ∀ f ∈ fs, f.type.literal.WellFormed ∧ f.type.literal.ClearParams) :
    (StaticType.shape (.struct fs)).literal.WellFormed ∧
      (StaticType.shape (.struct fs)).literal.ClearParams := by
  constructor
  · refine everywhere_struct ?_ fun f hf => (hw f hf).1
    rw [StaticType.literal_struct]
    exact List.forall_mem_map.2 fun f hf => (h f hf).wellFormed (hu f hf) (hw f hf).1
  · refine everywhere_struct ?_ fun f hf => (hw f hf).2
    rw [StaticType.literal_struct]
    trivial

theorem findable_struct (h : ∀ f ∈ fs, Findable store f.type) :
    Findable store (.shape (.struct fs)) := by
  refine .parent ⟨_, rfl⟩ fun c hc => ?_
  obtain ⟨f, hf, rfl⟩ := List.mem_map.1 hc
  exact h f hf

theorem corresponds_of_embedAlike (h : List.Forall₂ (EmbedAlike store) fs gs)
    (hn : ∀ f ∈ fs, ∃ d args, f.type.pointee = .named d args)
    (hw : ∀ f ∈ fs, f.type.literal.WellFormed) :
    Corresponds store (.shape (.struct fs)) (.shape (.struct gs)) := by
  have hbracket : ∀ f ∈ fs, ∃ d args, f.type.pointee = .named d args ∧ '[' ∉ d.name.toList := by
    intro f hf
    obtain ⟨d, args, hp⟩ := hn f hf
    have hnode := (hw f hf).pointee
    rw [f.type.pointee_literal, hp, StaticType.literal_named] at hnode
    exact ⟨d, args, hp, bracket_not_mem_name hnode⟩
  obtain ⟨zs, rfl, rfl, hz⟩ := fields_of_embedAlike h hbracket
  refine .shape (.struct zs) fun c hc => ?_
  obtain ⟨z, hm, rfl⟩ := List.mem_map.1 hc
  exact hz z hm

/-- An embedded type other than an unsafe pointer gives its field the name that its literal gives,
and so does the runtime type that corresponds to a named type.  A struct that embeds types for which
literals are found has a literal that is read back from its text, and if the types are named, the
corresponding runtime struct has the same one. -/
theorem names_of_embedded (store : Store) (config : Config) :
    (∀ s f, s.embedded = .ok f → s.pointee ≠ .shape (.basic .unsafePointer) →
      (∀ l, (literalFor store (.static s) { config }).1 = .ok l → f.name = l.embeddedName) ∧
      ∀ d args r, s.pointee = .named d args → '[' ∉ d.name.toList → Corresponds store s r →
        r.embedded.name = f.name) ∧
    (∀ fs, (∀ f ∈ fs, Embeds f) → (∀ f ∈ fs, f.type.pointee ≠ .shape (.basic .unsafePointer)) →
      (∀ f ∈ fs, ∃ l, (literalFor store (.static f.type) { config }).1 = .ok l) →
      (∀ f ∈ fs, f.type.literal.WellFormed ∧ f.type.literal.ClearParams) →
      let t : StaticType := .shape (.struct fs)
      (literalFor store (.static t) { config }).1 = .ok t.literal ∧
        parse t.literal.canonical = .ok t.literal) ∧
    ∀ fs gs, List.Forall₂ (EmbedAlike store) fs gs →
      (∀ f ∈ fs, (∃ d args, f.type.pointee = .named d args) ∧ f.type.literal.Portable) →
      let t : StaticType := .shape (.struct fs)
      let u : RuntimeType := .shape (.struct gs)
      (literalsFor store [.static t, .runtime u] { config }).1 = .ok [t.literal, t.literal] ∧
        (literalsFor store [.runtime u, .static t] { config }).1 = .ok [t.literal, t.literal] := by
  refine ⟨fun s f hf hs => ⟨fun l hl => name_of_literalFor hf hs hl, ?_⟩, ?_, ?_⟩
  · intro d args r hp hn hr
    rw [name_of_corresponds hr hp hn]
    rcases (StaticType.embedded_ok hf).2 with ⟨e, bs, he, hname⟩ | ⟨b, hb, -⟩
    · rw [hname, (StaticType.named.inj (hp.symm.trans he)).1]
    · cases hp.symm.trans hb
  · intro fs h hu hl hw t
    obtain ⟨hwell, hclear⟩ := legible_of_embeds h hu hw
    have hfindable : Findable store t := findable_struct fun f hf => findable_of_fresh (hl f hf)
    exact ⟨literalFor_of_findable hfindable hwell (distinct_of_wellFormed hwell hclear) config,
      stable_of_wellFormed hwell hclear⟩
  · intro fs gs h hn t u
    have hembeds := forall_of_embedAlike h
    have hwell : t.literal.WellFormed ∧ t.literal.ClearParams := by
      refine legible_of_embeds (fun f hf => (hembeds f hf).1) (fun f hf hu => ?_)
        fun f hf => ⟨(hn f hf).2.wellFormed, (hn f hf).2.clear⟩
      obtain ⟨d, args, hp⟩ := (hn f hf).1
      cases hp.symm.trans hu
    have hunmarked : t.literal.Everywhere fun l => Unmarked l.path := by
      refine everywhere_struct ?_ fun f hf => (hn f hf).2.unmarked
      rw [StaticType.literal_struct]
      exact (by decide : Unmarked "")
    have hp : t.literal.Portable := ⟨hwell.1, hwell.2, hunmarked⟩
    have hviewable : Viewable store t := by
      refine .shape fun c hc => ?_
      obtain ⟨f, hf, rfl⟩ := List.mem_map.1 hc
      exact (hembeds f hf).2
    have hcorresponds : Corresponds store t u :=
      corresponds_of_embedAlike h (fun f hf => (hn f hf).1) fun f hf => (hn f hf).2.wellFormed
    have ht := returns_literalFor hviewable.denotes hp
    have hu := returns_literalFor (hcorresponds.denotes hwell.1) hp
    constructor
    · refine literalsFor_of_returns (fun v hv => ?_) config
      rcases List.mem_pair.1 hv with rfl | rfl
      · exact ht
      · exact hu
    · refine literalsFor_of_returns (fun v hv => ?_) config
      rcases List.mem_pair.1 hv with rfl | rfl
      · exact hu
      · exact ht

theorem corresponds_boxPointer : Corresponds boxStore
    (.shape (.pointer (staticBox (.shape (.basic .int))))) (.shape (.pointer (.named intBox))) := by
  refine .shape (.pointer (staticBox (.shape (.basic .int)), .named intBox)) fun c hc => ?_
  rw [List.mem_singleton.1 hc]
  exact corresponds_box (viewable_basic .int) rfl rfl (by decide +kernel)

/-- The declarations of `boxStore`, and no nodes. -/
def declStore : Store := { boxStore with nodes := #[] }

theorem literalFor_boxPointer : ∃ l, (literalFor declStore
    (.static (.shape (.pointer (staticBox (.shape (.basic .int)))))) {}).1 = .ok l := by
  have hbox : Viewable declStore (staticBox (.shape (.basic .int))) := by
    refine .named (viewDecl_box _) fun c hc => ?_
    rw [List.mem_singleton.1 hc]
    exact viewable_basic .int
  have hpointer : Viewable declStore (.shape (.pointer (staticBox (.shape (.basic .int))))) := by
    refine .shape fun c hc => ?_
    rw [List.mem_singleton.1 hc]
    exact hbox
  exact (findable_of_viewable hpointer).literal {}

/-- The struct that embeds the pointer to a box has its literal in a store without nodes too. -/
theorem names_of_embedded_box :
    let s : StaticType := .shape (.pointer (staticBox (.shape (.basic .int))))
    let r : RuntimeType := .shape (.pointer (.named intBox))
    let t : StaticType := .shape (.struct [⟨"Box", s, "key", true⟩])
    let u : RuntimeType := .shape (.struct [{ r.embedded with tag := "key" }])
    let box := TypeLiteral.shape (.pointer (.named "lib" "Box" [.shape (.basic .int)]))
    let lit := TypeLiteral.shape (.struct [⟨"Box", box, "key", true⟩])
    r.embedded.name = "Box" ∧
      (literalFor declStore (.static t) {}).1 = .ok lit ∧ parse lit.canonical = .ok lit ∧
      (literalsFor boxStore [.runtime u, .static t] {}).1 = .ok [lit, lit] := by
  intro s r t u box lit
  obtain ⟨hone, -, hboth⟩ := names_of_embedded boxStore {}
  obtain ⟨-, hstatic, -⟩ := names_of_embedded declStore {}
  have hlit : s.literal = box := by decide +kernel
  have hall : t.literal = lit := by
    rw [StaticType.literal_struct, List.map_singleton, hlit]
  have hwell : box.WellFormed := by unfold WellFormed WellFormedAs; decide +kernel
  have hclear : box.ClearParams := by unfold ClearParams; decide +kernel
  have hpointee : s.pointee ≠ .shape (.basic .unsafePointer) := by
    simp [s, StaticType.pointee, staticBox]
  have hembedded : List.Forall₂ (EmbedAlike boxStore) [⟨"Box", s, "key", true⟩]
      [{ r.embedded with tag := "key" }] :=
    .cons (.intro "key" rfl corresponds_boxPointer) .nil
  have hembeds : Embeds ⟨"Box", s, "key", true⟩ :=
    .intro (s := s) (f := ⟨"Box", s, "", true⟩) "key" rfl
  obtain ⟨hfound, hparse⟩ := hstatic [⟨"Box", s, "key", true⟩] (by simpa using hembeds)
    (by simpa using hpointee) (by simpa using literalFor_boxPointer)
    (by simpa [hlit] using ⟨hwell, hclear⟩)
  obtain ⟨-, hshared⟩ := hboth _ _ hembedded fun f hf => by
    obtain rfl := List.mem_singleton.1 hf
    refine ⟨⟨_, _, rfl⟩, ?_⟩
    rw [hlit]
    exact ⟨hwell, hclear, by decide +kernel⟩
  rw [hall] at hfound hparse hshared
  refine ⟨?_, hfound, hparse, hshared⟩
  exact (hone s _ rfl hpointee).2 _ _ r rfl (by decide) corresponds_boxPointer

/-- One definition for all declarations and one for all nodes. -/
def oneStore : Store where
  decls := #[⟨some (.shape (.struct [])), []⟩]
  nodes := #[⟨some (.struct []), []⟩]

theorem viewDecl_one (path name : String) : oneStore.viewDecl ⟨0, path, name, []⟩ [] =
    .ok ⟨path, name, .resolved [], .shape (.struct []), []⟩ :=
  viewDecl_of rfl rfl (StaticType.substitute_nil _) rfl

/-- The literal of a struct that embeds a type of a package whose path has a blank in it. -/
theorem literalFor_spaced {l : TypeLiteral} (h : (literalFor oneStore (.static (.shape
    (.struct [⟨"T", .named ⟨0, "a b", "T", []⟩ [], "", true⟩]))) {}).1 = .ok l) :
    l = .shape (.struct [⟨"T", .named "a b" "T" [], "", true⟩]) := by
  obtain ⟨built, hb⟩ := (blank_fresh {}).look_eq (Prod.ext h rfl)
  rw [build_shape] at hb
  obtain ⟨z, hz, rfl⟩ := Outcome.exists_of_run_map hb
  obtain ⟨gs, after, hgs, hz⟩ := Outcome.exists_of_run_bind hz
  rw [List.mapM_cons] at hgs
  obtain ⟨g, first, hg, hgs⟩ := Outcome.exists_of_run_bind hgs
  obtain ⟨t, own, ht, hg⟩ := Outcome.exists_of_run_bind hg
  obtain ⟨built', ht⟩ := (blank_fresh {}).missed.look_eq ht
  rw [build_named (viewDecl_one "a b" "T")] at ht
  obtain ⟨ls, hls, rfl⟩ := Outcome.exists_of_run_map ht
  obtain rfl := Except.ok.inj (Prod.mk.inj hls).1
  obtain rfl := Except.ok.inj (Prod.mk.inj hg).1
  obtain rfl := Except.ok.inj (Prod.mk.inj hgs).1
  obtain rfl := Except.ok.inj (Prod.mk.inj hz).1
  rfl

/-- What is called otherwise: a basic type by its runtime counterpart, an unsafe pointer by its
literal, and a declaration with a bracket in its name by its node; and what is not read back. -/
theorem names_of_embedded_odd :
    (∃ f, Corresponds oneStore (.shape (.basic .int)) (.shape (.basic .int)) ∧
      (StaticType.shape (.basic .int)).embedded = .ok f ∧
      (RuntimeType.shape (.basic .int)).embedded.name ≠ f.name) ∧
    (∃ f l, (StaticType.shape (.basic .unsafePointer)).embedded = .ok f ∧
      (literalFor oneStore (.static (.shape (.basic .unsafePointer))) {}).1 = .ok l ∧
      f.name ≠ l.embeddedName) ∧
    (∃ f, Corresponds oneStore (.named ⟨0, "lib", "A[B", []⟩ []) (.named ⟨0, "lib", "A[B"⟩) ∧
      (StaticType.named ⟨0, "lib", "A[B", []⟩ []).embedded = .ok f ∧
      (RuntimeType.named ⟨0, "lib", "A[B"⟩).embedded.name ≠ f.name) ∧
    ∃ f l, (StaticType.named ⟨0, "a b", "T", []⟩ []).embedded = .ok f ∧
      (literalFor oneStore (.static (.shape (.struct [f]))) {}).1 = .ok l ∧
      parse l.canonical ≠ .ok l := by
  refine ⟨⟨_, ?_, rfl, by decide⟩, ?_, ⟨_, ?_, rfl, by decide⟩, ?_⟩
  · exact .shape (.basic .int) fun c hc => absurd hc (List.not_mem_nil (a := c))
  · have hviewable : Viewable oneStore (.shape (.basic .unsafePointer)) :=
      viewable_basic .unsafePointer
    obtain ⟨l, hl⟩ := (findable_of_viewable hviewable).literal {}
    obtain rfl := (blank_fresh {}).look_basic (Prod.ext hl rfl)
    exact ⟨_, _, rfl, hl, by decide +kernel⟩
  · exact .named (viewDecl_one "lib" "A[B") (by simp) rfl rfl (by decide +kernel)
  · have hviewable : Viewable oneStore (.shape
        (.struct [⟨"T", .named ⟨0, "a b", "T", []⟩ [], "", true⟩])) := by
      refine .shape fun c hc => ?_
      rw [List.mem_singleton.1 hc]
      exact .named (viewDecl_one "a b" "T") (by simp)
    obtain ⟨l, hl⟩ := (findable_of_viewable hviewable).literal {}
    obtain rfl := literalFor_spaced hl
    exact ⟨_, _, rfl, hl, by decide +kernel⟩

end TypeIdentity
