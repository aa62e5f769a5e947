import TypeIdentity.Proofs.Promotion.MethodSets

/-! # Method sets of host types

In the graph that a store describes, unnamed types contain their components, so the graph is
coherent as soon as types that are the same have the same views.
-/
namespace TypeIdentity.Promotion
variable {store : Store} {query : HostType}

theorem sizeOf_nominal_lt {t c : HostType} {s : Shape HostType}
    (hv : store.view t = .ok (.shape s)) (hc : c ∈ s.children) :
    sizeOf c.nominal < sizeOf t.nominal := by
  cases t with
  | static t =>
    obtain ⟨z, rfl, rfl⟩ := view_static_shape hv
    rw [Shape.children_mapChildren] at hc
    obtain ⟨d, hd, rfl⟩ := List.mem_map.1 hc
    have hm : d.nominal ∈ (z.mapChildren StaticType.nominal).children := by
      rw [Shape.children_mapChildren]
      exact List.mem_map_of_mem hd
    have hlt := Shape.sizeOf_lt hm
    simp only [HostType.nominal, StaticType.nominal, Shape.attach_mapChildren,
      HostType.static.sizeOf_spec, StaticType.shape.sizeOf_spec]
    omega
  | runtime t =>
    obtain ⟨z, rfl, rfl⟩ := view_runtime_shape hv
    rw [Shape.children_mapChildren] at hc
    obtain ⟨d, hd, rfl⟩ := List.mem_map.1 hc
    have hm : d.nominal ∈ (z.mapChildren RuntimeType.nominal).children := by
      rw [Shape.children_mapChildren]
      exact List.mem_map_of_mem hd
    have hlt := Shape.sizeOf_lt hm
    simp only [HostType.nominal, RuntimeType.nominal, Shape.attach_mapChildren,
      HostType.runtime.sizeOf_spec, RuntimeType.shape.sizeOf_spec]
    omega

/-- Types that are the same have the same views, as far as the query leads. -/
def SameViews (store : Store) (query : HostType) : Prop :=
  ∀ t u v, Seen store.graph query t → Seen store.graph query u → t.same u = true →
    store.view t = .ok v →
      ∃ w, store.view u = .ok w ∧ w.map HostType.nominal = v.map HostType.nominal

theorem SameViews.coherent (h : SameViews store query) :
    Coherent store.graph query HostType.nominal fun t => sizeOf t where
  same_iff _ _ := HostType.same_iff
  view ht hu hk _ hv := h _ _ _ ht hu (HostType.same_iff.2 hk.symm) hv
  rank_lt _ _ hv _ hc := sizeOf_nominal_lt hv hc

/-- A name is promoted exactly when no struct on a path has a field of the name, one candidate of
the name is shallower than all others, and that one has the pointer that it needs. -/
theorem mem_methods_iff (hviews : SameViews store query) {limit : Nat}
    {result : List (Promoted HostType)} (h : methods store.graph limit query = .ok result)
    (name : String) : (∃ p ∈ result, p.method.name = name) ↔
      (∀ choices s path v, Trail store.graph query choices (s :: path) →
        store.view s.type = .ok v → name ∉ v.fieldNames) ∧
      ∃ site c, Shallowest store.graph query site c ∧ c.method.name = name ∧
        (c.method.pointerReceiver = true → c.throughPointer = true) := by
  constructor
  · rintro ⟨p, hp, rfl⟩
    obtain ⟨hfields, site, c, hs, hneeds, rfl⟩ := (mem_methods hviews.coherent h p).1 hp
    exact ⟨hfields, site, c, hs, rfl, hneeds⟩
  · rintro ⟨hfields, site, c, hs, rfl, hneeds⟩
    refine ⟨⟨c.method, c.depth⟩, ?_, rfl⟩
    exact (mem_methods hviews.coherent h _).2 ⟨hfields, site, c, hs, hneeds, rfl⟩

/-- A struct that embeds a pointer to itself. -/
def chainStore : Store where
  decls := #[⟨some (.shape (.struct [⟨"Chain", .shape (.pointer (.named ⟨0, "lib", "Chain", []⟩ [])),
    "", true⟩])), [⟨"Len", ⟨[], [], false⟩, false⟩]⟩]
  nodes := #[]

def chain : StaticType := .named ⟨0, "lib", "Chain", []⟩ []

def chainPointer : StaticType := .shape (.pointer chain)

def chainBody : StaticType := .shape (.struct [⟨"Chain", chainPointer, "", true⟩])

theorem view_chain : chainStore.view (.static chain) = .ok (.named ⟨"lib", "Chain", .resolved [],
    .static chainBody, [⟨"Len", ⟨[], [], false⟩, false⟩]⟩) := rfl

theorem view_chainBody : chainStore.view (.static chainBody) =
    .ok (.shape (.struct [⟨"Chain", .static chainPointer, "", true⟩])) := rfl

theorem view_chainPointer : chainStore.view (.static chainPointer) =
    .ok (.shape (.pointer (.static chain))) := rfl

theorem same_chain_chainBody : chain.same chainBody = false := by
  simp [StaticType.same, chain, chainBody]

theorem same_chain_chainPointer : chain.same chainPointer = false := by
  simp [StaticType.same, chain, chainPointer]

theorem same_chainBody_chainPointer : chainBody.same chainPointer = false := by
  simp [StaticType.same, Shape.agreeOn, chainBody, chainPointer]

theorem methods_chain : methods chainStore.graph 3 (.static chain) =
    .ok [⟨⟨"Len", ⟨[], [], false⟩, false⟩, 0⟩] := by
  -- apart from the promotion, which sorts the names by a recursion that only its equations unfold
  have hfound : explore chainStore.graph 3 1 3 [] [] (.static chain) =
      .ok ⟨["Chain"], [⟨([], 0), ⟨⟨"Len", ⟨[], [], false⟩, false⟩, 0, false⟩⟩]⟩ := by
    rw [Store.graph_eq]
    with_unfolding_all rfl
  rw [methods_of_explore rfl hfound]
  cbv

theorem seen_chain {t : HostType} (h : Seen chainStore.graph (.static chain) t) :
    t = .static chain ∨ t = .static chainBody ∨ t = .static chainPointer := by
  induction h with
  | query => exact .inl rfl
  | component _ hv hc ih =>
    rcases ih with rfl | rfl | rfl
    · cases view_chain.symm.trans hv
    · cases view_chainBody.symm.trans hv
      exact .inr (.inr (List.mem_singleton.1 hc))
    · cases view_chainPointer.symm.trans hv
      exact .inl (List.mem_singleton.1 hc)
  | underlying _ hv ih =>
    rcases ih with rfl | rfl | rfl
    · cases view_chain.symm.trans hv
      exact .inr (.inl rfl)
    · cases view_chainBody.symm.trans hv
    · cases view_chainPointer.symm.trans hv

theorem sameViews_chain : SameViews chainStore (.static chain) := by
  intro t u v ht hu hs hv
  obtain rfl : t = u := by
    rcases seen_chain ht with rfl | rfl | rfl <;> rcases seen_chain hu with rfl | rfl | rfl
    case inl.inl | inr.inl.inr.inl | inr.inr.inr.inr => rfl
    all_goals
      rw [HostType.same_static] at hs
      exact absurd hs (by decide +kernel)
  exact ⟨v, hv, rfl⟩

theorem mem_methods_iff_chain : SameViews chainStore (.static chain) ∧
    methods chainStore.graph 3 (.static chain) = .ok [⟨⟨"Len", ⟨[], [], false⟩, false⟩, 0⟩] ∧
    ∃ site c, Shallowest chainStore.graph (.static chain) site c ∧ c.method.name = "Len" := by
  have hlen := (mem_methods_iff sameViews_chain methods_chain "Len").1
    ⟨_, List.mem_singleton_self _, rfl⟩
  obtain ⟨-, site, c, hs, hn, -⟩ := hlen
  exact ⟨sameViews_chain, methods_chain, site, c, hs, hn⟩

end TypeIdentity.Promotion
