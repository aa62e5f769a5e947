import TypeIdentity.Proofs.Promotion.Searches
import TypeIdentity.Proofs.Promotion.Shortcuts

/-! # Ways that come back to a type

A way to a field that comes back to a type can be cut short, if types that are the same have the
same views.  Between the two visits an embedded field has been entered, since otherwise the steps
that led back to the type would lead back again and never to a struct; so every field that is
reached in a roundabout way has another one beside it that occurs less deep.
-/
namespace TypeIdentity.Promotion
variable {α : Type} {g : TypeGraph α} {accepts : String → Bool} {query : α} {key : α → α}
  {rank : α → Nat} {embedded embedded' : Bool} {t u : α} {types : List α} {site : List Nat}
  {depth i k : Nat} {f : Field α}

theorem Seen.enters (h : Seen g query t) (he : Enters g accepts embedded t i k embedded' u) :
    Seen g query u := by
  cases he with
  | underlying hv => exact .underlying h hv
  | pointee hv _ _ => exact .component h hv (List.mem_singleton_self u)
  | embedded hv _ hf _ => exact .component h hv (List.mem_map_of_mem (List.mem_of_getElem? hf))

/-! ## Structs ahead -/

/-- How many steps lead from a type to the next struct. -/
inductive Leads (g : TypeGraph α) : Nat → α → Prop
  | struct {t : α} {fs : List (Field α)} (hv : g.view t = .ok (.shape (.struct fs))) : Leads g 0 t
  | underlying {m : Nat} {t : α} {n : NamedView α} (hv : g.view t = .ok (.named n))
      (h : Leads g m n.underlying) : Leads g (m + 1) t
  | pointee {m : Nat} {t e : α} (hv : g.view t = .ok (.shape (.pointer e))) (h : Leads g m e) :
      Leads g (m + 1) t

/-- A struct, or a named type with only named types before the next struct. -/
inductive Bare (g : TypeGraph α) : α → Prop
  | struct {t : α} {fs : List (Field α)} (hv : g.view t = .ok (.shape (.struct fs))) : Bare g t
  | underlying {t : α} {n : NamedView α} (hv : g.view t = .ok (.named n))
      (h : Bare g n.underlying) : Bare g t

theorem view_of_fields {t : α} {v : View α} (hv : g.view t = .ok v) (hf : v.fields[i]? = some f) :
    ∃ fs, g.view t = .ok (.shape (.struct fs)) := by
  rcases v with (_ | _ | _ | _ | _ | _ | fs | _ | _) | _
  case shape.struct => exact ⟨fs, hv⟩
  all_goals cases hf

theorem Reaches.leads (h : Reaches g accepts embedded t types site depth f) : ∃ m, Leads g m t := by
  induction h with
  | direct hv hf _ =>
    obtain ⟨fs, hs⟩ := view_of_fields hv hf
    exact ⟨0, .struct hs⟩
  | inside he _ ih =>
    obtain ⟨m, hm⟩ := ih
    cases he with
    | underlying hv => exact ⟨m + 1, .underlying hv hm⟩
    | pointee hv _ _ => exact ⟨m + 1, .pointee hv hm⟩
    | embedded hv _ _ _ => exact ⟨0, .struct hv⟩

/-- Before an embedded field has been entered no pointer is followed. -/
theorem Reaches.bare (h : Reaches g accepts false t types site depth f) : Bare g t := by
  generalize hb : false = b at h
  induction h with
  | direct hv hf _ =>
    obtain ⟨fs, hs⟩ := view_of_fields hv hf
    exact .struct hs
  | inside he _ ih =>
    cases he with
    | underlying hv => exact .underlying hv (ih hb)
    | pointee => cases hb
    | embedded hv _ _ _ => exact .struct hv

/-- Types that are the same lead to the next struct in as many steps. -/
theorem Coherent.leads_unique (hc : Coherent g query key rank) {m m' : Nat} (h : Leads g m t)
    (h' : Leads g m' u) (ht : Seen g query t) (hu : Seen g query u) (hk : key u = key t) :
    m = m' := by
  induction h generalizing u m' with
  | struct hv =>
    obtain ⟨w, hw, hm⟩ := hc.view ht hu hk hv
    obtain ⟨z, rfl, hz⟩ := View.shape_of_map_eq hm
    obtain ⟨gs, rfl, -⟩ := Shape.struct_of_mapChildren_eq hz
    cases h' with
    | struct => rfl
    | underlying hv' _ => cases hw.symm.trans hv'
    | pointee hv' _ => cases hw.symm.trans hv'
  | underlying hv _ ih =>
    obtain ⟨w, hw, hm⟩ := hc.view ht hu hk hv
    obtain ⟨n, rfl, hku, -⟩ := View.named_of_map_eq hm
    cases h' with
    | struct hv' => cases hw.symm.trans hv'
    | underlying hv' h' =>
      obtain rfl := View.named.inj (Except.ok.inj (hw.symm.trans hv'))
      exact congrArg (· + 1) (ih h' (.underlying ht hv) (.underlying hu hw) hku)
    | pointee hv' _ => cases hw.symm.trans hv'
  | pointee hv _ ih =>
    obtain ⟨w, hw, hm⟩ := hc.view ht hu hk hv
    obtain ⟨z, rfl, hz⟩ := View.shape_of_map_eq hm
    obtain ⟨e, rfl, he⟩ := Shape.pointer_of_mapChildren_eq hz
    cases h' with
    | struct hv' => cases hw.symm.trans hv'
    | underlying hv' _ => cases hw.symm.trans hv'
    | pointee hv' h' =>
      cases hw.symm.trans hv'
      exact congrArg (· + 1) (ih h' (.component ht hv (List.mem_singleton_self _))
        (.component hu hw (List.mem_singleton_self _)) he)

/-! ## Cutting short -/

/-- A step from a type is taken from all types that are the same, unless it follows a pointer that
may not be followed yet. -/
theorem Coherent.enters {a : α} {embedded'' : Bool} (hc : Coherent g query key rank)
    (h : Enters g accepts embedded t i k embedded' a) (ht : Seen g query t) (hu : Seen g query u)
    (hk : key u = key t) (hb : embedded'' = true ∨ Bare g u) : ∃ embedded₁ b,
      Enters g accepts embedded'' u i k embedded₁ b ∧ key b = key a ∧
        (embedded₁ = true ∨ Bare g b) := by
  have hseen := ht.enters h
  cases h with
  | underlying hv =>
    obtain ⟨w, hw, hm⟩ := hc.view ht hu hk hv
    obtain ⟨n, rfl, hku, -⟩ := View.named_of_map_eq hm
    refine ⟨embedded'', _, .underlying hw, hku, hb.imp_right fun hbare => ?_⟩
    cases hbare with
    | struct hv' => cases hw.symm.trans hv'
    | underlying hv' h =>
      obtain rfl := View.named.inj (Except.ok.inj (hw.symm.trans hv'))
      exact h
  | pointee hv he hp =>
    obtain ⟨w, hw, hm⟩ := hc.view ht hu hk hv
    obtain ⟨z, rfl, hz⟩ := View.shape_of_map_eq hm
    obtain ⟨e, rfl, hke⟩ := Shape.pointer_of_mapChildren_eq hz
    have hue : Seen g query e := .component hu hw (List.mem_singleton_self e)
    obtain ⟨y, hy, hxy⟩ := hc.view hseen hue hke he
    have hpy := congrArg View.isPointer hxy
    rw [View.isPointer_map, View.isPointer_map, hp] at hpy
    obtain rfl : embedded'' = true := by
      refine hb.resolve_right fun hbare => ?_
      cases hbare with
      | struct hv' => cases hw.symm.trans hv'
      | underlying hv' _ => cases hw.symm.trans hv'
    exact ⟨true, e, .pointee hw hy hpy, hke, .inl rfl⟩
  | @embedded _ _ fs _ _ hv hn hf hemb =>
    obtain ⟨w, hw, hm⟩ := hc.view ht hu hk hv
    have hnames := View.fieldNames_of_map_eq hm
    obtain ⟨z, rfl, hz⟩ := View.shape_of_map_eq hm
    obtain ⟨gs, rfl, hgs⟩ := Shape.struct_of_mapChildren_eq hz
    obtain ⟨y, hy, htype, hye⟩ := Shape.exists_field hgs hf
    have hn' : (gs.filter fun x => accepts x.name) = [] := by
      rw [List.filter_eq_nil_iff] at hn ⊢
      intro z hz
      have hname : z.name ∈ gs.map (·.name) := List.mem_map_of_mem hz
      rw [show gs.map (·.name) = fs.map (·.name) from hnames] at hname
      obtain ⟨z', hz', he⟩ := List.mem_map.1 hname
      exact he ▸ hn z' hz'
    exact ⟨true, y.type, .embedded hw hn' hy (hye.trans hemb), htype, .inl rfl⟩

/-- What is reached from a type is reached from all types that are the same, as long as no pointer
has to be followed that may not be followed yet. -/
theorem Coherent.reaches (hc : Coherent g query key rank)
    (h : Reaches g accepts embedded t types site depth f) (ht : Seen g query t)
    (hu : Seen g query u) (hk : key u = key t) (hb : embedded' = true ∨ Bare g u) :
    ∃ types' f', Reaches g accepts embedded' u types' site depth f' := by
  induction h generalizing u embedded' with
  | @direct _ _ v i f hv hf ha =>
    obtain ⟨w, hw, hm⟩ := hc.view ht hu hk hv
    have hnames := congrArg (·[i]?) (View.fieldNames_of_map_eq hm)
    simp only [View.fieldNames_eq, List.getElem?_map, hf] at hnames
    obtain ⟨f', hf', hname⟩ := Option.map_eq_some_iff.1 hnames
    exact ⟨[u], f', .direct hw hf' (hname ▸ ha)⟩
  | inside he _ ih =>
    obtain ⟨_, b, he', hkb, hb'⟩ := hc.enters he ht hu hk hb
    obtain ⟨types', f', h'⟩ := ih (ht.enters he) (hu.enters he') hkb hb'
    exact ⟨_, f', .inside he' h'⟩

/-- A step enters an embedded field or comes closer to the next struct. -/
theorem Enters.closer (he : Enters g accepts embedded t i k embedded' u) {m : Nat}
    (h : Leads g m t) : k = 1 ∨ k = 0 ∧ ∃ m', m = m' + 1 ∧ Leads g m' u := by
  cases he with
  | underlying hv =>
    cases h with
    | struct hv' => cases hv.symm.trans hv'
    | underlying hv' h =>
      obtain rfl := View.named.inj (Except.ok.inj (hv.symm.trans hv'))
      exact .inr ⟨rfl, _, rfl, h⟩
    | pointee hv' _ => cases hv.symm.trans hv'
  | pointee hv _ _ =>
    cases h with
    | struct hv' => cases hv.symm.trans hv'
    | underlying hv' _ => cases hv.symm.trans hv'
    | pointee hv' h =>
      cases hv.symm.trans hv'
      exact .inr ⟨rfl, _, rfl, h⟩
  | embedded => exact .inl rfl

/-- The rest of a way from a type on it: fewer embedded fields are ahead, or as many and the next
struct is not farther away. -/
theorem Reaches.rest (h : Reaches g accepts embedded t types site depth f) (ht : Seen g query t)
    (hu : u ∈ types) : Seen g query u ∧ ∃ embedded' types' site' depth',
      Reaches g accepts embedded' u types' site' depth' f ∧
        (depth' < depth ∨ depth' = depth ∧ ∀ m, Leads g m t → ∃ m', Leads g m' u ∧ m' ≤ m) := by
  have hself {b : Bool} {t : α} {types : List α} {site : List Nat} {depth : Nat} {f : Field α}
      (h : Reaches g accepts b t types site depth f) : ∃ embedded' types' site' depth',
        Reaches g accepts embedded' t types' site' depth' f ∧
          (depth' < depth ∨ depth' = depth ∧ ∀ m, Leads g m t → ∃ m', Leads g m' t ∧ m' ≤ m) :=
    ⟨b, types, site, depth, h, .inr ⟨rfl, fun m hm => ⟨m, hm, Nat.le_refl m⟩⟩⟩
  induction h with
  | @direct b t v i f hv hf ha =>
    obtain rfl := List.mem_singleton.1 hu
    have hr : Reaches g accepts b u [u] [i] 0 f := .direct hv hf ha
    exact ⟨ht, hself hr⟩
  | inside he h ih =>
    rcases List.mem_cons.1 hu with rfl | hu
    · exact ⟨ht, hself (.inside he h)⟩
    · obtain ⟨hseen, b, types', site', depth', hr, hlt⟩ := ih (ht.enters he) hu
      refine ⟨hseen, b, types', site', depth', hr, ?_⟩
      rcases hlt with hlt | ⟨rfl, hle⟩
      · exact .inl (Nat.lt_of_lt_of_le hlt (Nat.le_add_right _ _))
      · obtain ⟨m₀, hm₀⟩ := (Reaches.inside he h).leads
        rcases he.closer hm₀ with rfl | ⟨rfl, -⟩
        · exact .inl (Nat.lt_succ_self _)
        · refine .inr ⟨rfl, fun m hm => ?_⟩
          obtain h1 | ⟨-, m₁, rfl, hm₁⟩ := he.closer hm
          · cases h1
          · obtain ⟨m', hm', hle⟩ := hle m₁ hm₁
            exact ⟨m', hm', Nat.le_succ_of_le hle⟩

/-- No type on the way is the same as an earlier one. -/
def Direct (g : TypeGraph α) (types : List α) : Prop :=
  types.Pairwise fun t u => g.same t u = false

theorem apart_iff {path : List α} : Apart g path types ↔
    Direct g types ∧ ∀ s ∈ path, ∀ t ∈ types, g.same s t = false := by
  induction types generalizing path with
  | nil => simp [Apart, Direct]
  | cons t types ih =>
    simp only [Apart, Direct, List.pairwise_cons, ih, List.any_eq_false, List.mem_cons,
      Bool.not_eq_true]
    grind [Direct]

/-- A way that comes back to a type has another one beside it that enters fewer embedded fields. -/
theorem Coherent.shorter (hc : Coherent g query key rank)
    (h : Reaches g accepts embedded t types site depth f) (ht : Seen g query t)
    (hd : ¬Direct g types) : ∃ types' site' depth' f',
      Reaches g accepts embedded t types' site' depth' f' ∧ depth' < depth := by
  induction h with
  | direct => exact absurd (List.pairwise_singleton ..) hd
  | @inside embedded _ t _ types _ _ k depth _ he h ih =>
    by_cases hrest : Direct g types
    · have hback : ∃ u ∈ types, g.same t u = true := by
        by_contra hno
        refine hd (List.pairwise_cons.2 ⟨fun u hu => ?_, hrest⟩)
        by_contra hs
        exact hno ⟨u, hu, Bool.of_not_eq_false hs⟩
      obtain ⟨u, hu, hs⟩ := hback
      have hk : key t = key u := (hc.same_iff t u).1 hs
      obtain ⟨hseen, _, types', site', depth', hr, hlt⟩ := h.rest (ht.enters he) hu
      have hb : embedded = true ∨ Bare g t := by
        cases embedded with
        | true => exact .inl rfl
        | false => exact .inr (Reaches.inside he h).bare
      obtain ⟨types'', f', hr'⟩ := hc.reaches hr hseen ht hk hb
      refine ⟨types'', site', depth', f', hr', ?_⟩
      rcases hlt with hlt | ⟨rfl, hle⟩
      · exact Nat.lt_of_lt_of_le hlt (Nat.le_add_right _ _)
      · -- without an embedded field in between, the next struct is both closer and as far
        obtain ⟨m, hm⟩ := (Reaches.inside he h).leads
        obtain rfl | ⟨-, m', rfl, hm'⟩ := he.closer hm
        · exact Nat.lt_succ_self _
        · obtain ⟨m'', hm'', hle⟩ := hle m' hm'
          have heq := hc.leads_unique hm'' hm hseen ht hk
          omega
    · obtain ⟨types', site', depth', f', hr, hlt⟩ := ih (ht.enters he) hrest
      exact ⟨_, _, _, f', .inside he hr, Nat.add_lt_add_right hlt k⟩

/-- Every field that is reached occurs, or another one occurs less deep. -/
theorem Coherent.occurs (hc : Coherent g query key rank)
    (h : Reaches g accepts embedded query types site depth f) :
    Occurs g accepts [] embedded query site depth f ∨
      ∃ site' depth' f', Occurs g accepts [] embedded query site' depth' f' ∧ depth' < depth := by
  induction depth using Nat.strongRecOn generalizing types site f with
  | ind depth ih =>
    by_cases hd : Direct g types
    · exact .inl ⟨types, h, apart_iff.2 ⟨hd, by simp⟩⟩
    · obtain ⟨types', site', depth', f', hr, hlt⟩ := hc.shorter h .query hd
      rcases ih depth' hlt hr with ho | ⟨site'', depth'', f'', ho, hlt'⟩
      · exact .inr ⟨site', depth', f', ho, hlt⟩
      · exact .inr ⟨site'', depth'', f'', ho, Nat.lt_trans hlt' hlt⟩

theorem Reaches.site_ne_nil (h : Reaches g accepts embedded t types [] depth f) : False := by
  cases h

/-- The choices on a way tell how many embedded fields it enters. -/
theorem Reaches.depth_eq {types' : List α} {depth' : Nat} {f' : Field α}
    (h : Reaches g accepts embedded t types site depth f)
    (h' : Reaches g accepts embedded t types' site depth' f') : depth = depth' := by
  induction h generalizing types' depth' f' with
  | direct =>
    cases h' with
    | direct => rfl
    | inside _ h' => exact h'.site_ne_nil.elim
  | inside he h ih =>
    cases h' with
    | direct => exact h.site_ne_nil.elim
    | inside he' h' =>
      obtain ⟨rfl, rfl, rfl⟩ := enters_unique he he'
      rw [ih h']

/-- In a branch off a way two fields occur. -/
def AmbiguousBeside (g : TypeGraph α) (accepts : String → Bool) (query : α) (site : List Nat) :
    Prop :=
  ∃ site₁ depth₁ f₁ site₂ depth₂ f₂, Occurs g accepts [] false query site₁ depth₁ f₁ ∧
    Occurs g accepts [] false query site₂ depth₂ f₂ ∧ site₂ ≠ site₁ ∧
      LeaveTogether site site₁ site₂

/-- A field that is reached no deeper than the one found, on whatever way, comes with a branch in
which two fields occur. -/
theorem Coherent.ambiguousBeside (hc : Coherent g query key rank)
    (ho : Occurs g accepts [] false query site depth f)
    (hothers : ∀ site' depth' f', Occurs g accepts [] false query site' depth' f' → site' ≠ site →
      ∃ site'' depth'' f'', Occurs g accepts [] false query site'' depth'' f'' ∧ site'' ≠ site' ∧
        LeaveTogether site site' site'')
    {types' : List α} {site' : List Nat} {depth' : Nat} {f' : Field α}
    (hr : Reaches g accepts false query types' site' depth' f') (hle : depth' ≤ depth)
    (hne : site' ≠ site) : AmbiguousBeside g accepts query site := by
  rcases hc.occurs hr with ho' | ⟨site₁, depth₁, f₁, ho', hlt⟩
  · obtain ⟨site₂, depth₂, f₂, ho₂, hne₂, hleave⟩ := hothers _ _ _ ho' hne
    exact ⟨_, _, _, _, _, _, ho', ho₂, hne₂, hleave⟩
  · have hne₁ : site₁ ≠ site := by
      rintro rfl
      obtain ⟨_, h, -⟩ := ho
      obtain ⟨_, h', -⟩ := ho'
      have heq := h.depth_eq h'
      omega
    obtain ⟨site₂, depth₂, f₂, ho₂, hne₂, hleave⟩ := hothers _ _ _ ho' hne₁
    exact ⟨_, _, _, _, _, _, ho', ho₂, hne₂, hleave⟩

end TypeIdentity.Promotion
