import Mathlib.Data.List.Permutation
import TypeIdentity.Proofs.Promotion.Returns

/-! # Fields on embedding paths

A search does not look behind a struct with an accepted field, and it takes a branch with two of
them for a branch without one.  Seen from all the fields that embedding leads to, it still invents
no field, misses none that is alone, and finds nothing where there is none.
-/
namespace TypeIdentity.Promotion
variable {α : Type} {g : TypeGraph α} {accepts : String → Bool} {limit : Nat} {query : α}
  {embedded embedded' : Bool} {t u : α} {types : List α} {site : List Nat} {i : Nat} {f : Field α}

/-! ## Paths to fields -/

/-- One step towards a field, from a struct by the position of the embedded field.  A pointer is
followed behind embedded fields only, and not to another pointer. -/
inductive FieldHop (g : TypeGraph α) : Bool → α → Nat → Bool → α → Prop
  | underlying {embedded : Bool} {t : α} {n : NamedView α} (hv : g.view t = .ok (.named n)) :
      FieldHop g embedded t 0 embedded n.underlying
  | pointee {t e : α} {v : View α} (hv : g.view t = .ok (.shape (.pointer e)))
      (he : g.view e = .ok v) (hp : v.isPointer = false) : FieldHop g true t 0 true e
  | embedded {embedded : Bool} {t : α} {fs : List (Field α)} {i : Nat} {f : Field α}
      (hv : g.view t = .ok (.shape (.struct fs))) (hf : fs[i]? = some f)
      (he : f.embedded = true) : FieldHop g embedded t i true f.type

/-- A field of a struct, with the types on the way to it and the choices made on it. -/
inductive FieldTrail (g : TypeGraph α) : Bool → α → List α → List Nat → Field α → Prop
  | here {embedded : Bool} {t : α} {fs : List (Field α)} {i : Nat} {f : Field α}
      (hv : g.view t = .ok (.shape (.struct fs))) (hf : fs[i]? = some f) :
      FieldTrail g embedded t [t] [i] f
  | beyond {embedded embedded' : Bool} {t u : α} {types : List α} {site : List Nat} {i : Nat}
      {f : Field α} (hh : FieldHop g embedded t i embedded' u)
      (h : FieldTrail g embedded' u types site f) :
      FieldTrail g embedded t (t :: types) (i :: site) f

/-- A field lies on a path from the query that does not come back to a type. -/
def Lies (g : TypeGraph α) (query : α) (site : List Nat) (f : Field α) : Prop :=
  ∃ types, FieldTrail g false query types site f ∧ Direct g types

theorem FieldHop.unique {b b' : Bool} {u' : α} (h : FieldHop g embedded t i b u)
    (h' : FieldHop g embedded t i b' u') : b = b' ∧ u = u' := by
  cases h <;> cases h' <;> grind

theorem FieldTrail.site_ne_nil (h : FieldTrail g embedded t types site f) : site ≠ [] := by
  cases h <;> exact List.cons_ne_nil _ _

/-- The choices tell the field. -/
theorem FieldTrail.unique {types' : List α} {f' : Field α}
    (h : FieldTrail g embedded t types site f) (h' : FieldTrail g embedded t types' site f') :
    f = f' := by
  induction h generalizing types' with
  | here hv hf =>
    cases h' with
    | here hv' hf' => grind
    | beyond _ h' => exact absurd rfl h'.site_ne_nil
  | beyond hh h ih =>
    cases h' with
    | here => exact absurd rfl h.site_ne_nil
    | beyond hh' h' =>
      obtain ⟨rfl, rfl⟩ := hh.unique hh'
      exact ih h'

/-! ## Paths that searches take -/

theorem Enters.fieldHop {k : Nat} (h : Enters g accepts embedded t i k embedded' u) :
    FieldHop g embedded t i embedded' u := by
  cases h with
  | underlying hv => exact .underlying hv
  | pointee hv he hp => exact .pointee hv he hp
  | embedded hv _ hf he => exact .embedded hv hf he

theorem Reaches.fieldTrail {depth : Nat} (h : Reaches g accepts embedded t types site depth f) :
    FieldTrail g embedded t types site f ∧ accepts f.name = true := by
  induction h with
  | direct hv hf ha =>
    obtain ⟨fs, hs⟩ := view_of_fields hv hf
    obtain rfl := Except.ok.inj (hv.symm.trans hs)
    exact ⟨.here hs hf, ha⟩
  | inside he _ ih => exact ⟨.beyond he.fieldHop ih.1, ih.2⟩

theorem Occurs.lies {depth : Nat} (h : Occurs g accepts [] false query site depth f) :
    Lies g query site f ∧ accepts f.name = true := by
  obtain ⟨types, hr, ha⟩ := h
  exact ⟨⟨types, hr.fieldTrail.1, (apart_iff.1 ha).1⟩, hr.fieldTrail.2⟩

/-- A step leads from a struct that has an accepted field, or the search takes it. -/
theorem FieldHop.enters (accepts : String → Bool) (h : FieldHop g embedded t i embedded' u) :
    (∃ k, Enters g accepts embedded t i k embedded' u) ∨
      ∃ (fs : List (Field α)) (j : Nat) (f : Field α),
        g.view t = .ok (.shape (.struct fs)) ∧ fs[j]? = some f ∧ accepts f.name = true := by
  cases h with
  | underlying hv => exact .inl ⟨0, .underlying hv⟩
  | pointee hv he hp => exact .inl ⟨0, .pointee hv he hp⟩
  | @embedded _ _ fs _ _ hv hf he =>
    by_cases hn : (fs.filter fun f => accepts f.name) = []
    · exact .inl ⟨1, .embedded hv hn hf he⟩
    · obtain ⟨f', hf'⟩ := List.exists_mem_of_ne_nil _ hn
      obtain ⟨hm, ha⟩ := List.mem_filter.1 hf'
      obtain ⟨j, hj⟩ := List.mem_iff_getElem?.1 hm
      exact .inr ⟨fs, j, f', hv, hj, ha⟩

/-- An accepted field is reached by the search, or another one stands in a struct on the way. -/
theorem FieldTrail.reaches (h : FieldTrail g embedded t types site f)
    (ha : accepts f.name = true) :
    (∃ depth, Reaches g accepts embedded t types site depth f) ∨
      ∃ types' site' f', FieldTrail g embedded t types' site' f' ∧ accepts f'.name = true ∧
        types'.Sublist types ∧ site'.length < site.length := by
  induction h with
  | here hv hf => exact .inl ⟨0, .direct hv hf ha⟩
  | @beyond _ _ t _ types site i _ hh h ih =>
    rcases hh.enters accepts with ⟨k, he⟩ | ⟨fs, j, f', hv, hf', ha'⟩
    · rcases ih ha with ⟨depth, hr⟩ | ⟨types', site', f', ht, ha', hs, hlt⟩
      · exact .inl ⟨depth + k, .inside he hr⟩
      · exact .inr ⟨t :: types', i :: site', f', .beyond hh ht, ha', hs.cons_cons t,
          Nat.succ_lt_succ hlt⟩
    · have hpos := List.length_pos_iff.2 h.site_ne_nil
      exact .inr ⟨[t], [j], f', .here hv hf', ha', List.singleton_sublist.2 (List.mem_cons_self ..),
        Nat.succ_lt_succ hpos⟩

/-- Where a search finds nothing, no accepted field is alone. -/
theorem exists_other_of_lies (h : field? g limit accepts query = .ok none)
    (hl : Lies g query site f) (ha : accepts f.name = true) :
    ∃ site' f', Lies g query site' f' ∧ accepts f'.name = true ∧ site' ≠ site := by
  obtain ⟨types, ht, hd⟩ := hl
  rcases ht.reaches ha with ⟨depth, hr⟩ | ⟨types', site', f', ht', ha', hs, hlt⟩
  · have ho : Occurs g accepts [] false query site depth f :=
      ⟨types, hr, apart_iff.2 ⟨hd, by simp⟩⟩
    obtain ⟨site', depth', f', ho', hne⟩ := exists_other_of_search h ho
    exact ⟨site', f', ho'.lies.1, ho'.lies.2, hne⟩
  · have hne : site' ≠ site := fun he => absurd hlt (he ▸ Nat.lt_irrefl _)
    exact ⟨site', f', ⟨types', ht', List.Pairwise.sublist hs hd⟩, ha', hne⟩

/-- What a search finds is an accepted field on an embedding path; it finds nothing where no such
field is accepted, and the one that is accepted where there is only one.  A field counts once for
each path to it: one that is reached on two paths is not the only one. -/
theorem field?_lies {found : Option (Field α)} (h : field? g limit accepts query = .ok found) :
    (∀ f, found = some f → accepts f.name = true ∧ ∃ site, Lies g query site f) ∧
    ((∀ site f, Lies g query site f → accepts f.name = false) → found = none) ∧
    ∀ site f, Lies g query site f → accepts f.name = true →
      (∀ site' f', Lies g query site' f' → accepts f'.name = true → site' = site) →
        found = some f := by
  have hsound : ∀ f, found = some f → accepts f.name = true ∧ ∃ site, Lies g query site f := by
    rintro f rfl
    obtain ⟨site, depth, ho⟩ := occurs_of_search h
    exact ⟨ho.lies.2, site, ho.lies.1⟩
  refine ⟨hsound, fun hnone => ?_, fun site f hl ha honly => ?_⟩
  · cases found with
    | none => rfl
    | some f =>
      obtain ⟨ha, site, hl⟩ := hsound f rfl
      rw [hnone site f hl] at ha
      cases ha
  · cases found with
    | none =>
      obtain ⟨site', f', hl', ha', hne⟩ := exists_other_of_lies h hl ha
      exact absurd (honly site' f' hl' ha') hne
    | some f₀ =>
      obtain ⟨ha₀, site₀, types₀, ht₀, hd₀⟩ := hsound f₀ rfl
      obtain rfl := honly site₀ f₀ ⟨types₀, ht₀, hd₀⟩ ha₀
      obtain ⟨types, ht, -⟩ := hl
      rw [ht₀.unique ht]

/-! ## A field behind an embedded pointer -/

def ringLink (id : Nat) (name : String) : StaticType :=
  .shape (.pointer (.named ⟨id, "lib", name, []⟩ []))

def ringSize : Field StaticType := ⟨"size", .shape (.basic .int), "", false⟩

/-- Two structs that embed a pointer to each other; the second one has a field besides. -/
def ringStore : Store where
  decls := #[⟨some (.shape (.struct [⟨"Link", ringLink 1 "Link", "", true⟩])), []⟩,
    ⟨some (.shape (.struct [⟨"Ring", ringLink 0 "Ring", "", true⟩, ringSize])), []⟩]
  nodes := #[]

def ring : HostType := .static (.named ⟨0, "lib", "Ring", []⟩ [])

theorem field?_lies_ring : field? ringStore.graph 5 (· = "size") ring =
      .ok (some ⟨"size", .static (.shape (.basic .int)), "", false⟩) ∧
    ∃ site, Lies ringStore.graph ring site ⟨"size", .static (.shape (.basic .int)), "", false⟩ := by
  have hfound : field? ringStore.graph 5 (· = "size") ring =
      .ok (some ⟨"size", .static (.shape (.basic .int)), "", false⟩) := by
    rw [Store.graph_eq]
    cbv
  exact ⟨hfound, ((field?_lies hfound).1 _ rfl).2⟩

end TypeIdentity.Promotion
