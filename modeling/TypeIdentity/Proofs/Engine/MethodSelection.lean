import TypeIdentity.Proofs.Engine.PromotedFields
import TypeIdentity.Proofs.Promotion.Selection

/-! # Method sets and selectors

The method set of a type has the names that selectors reach, except those that a deeper field has;
and it counts the depth of a member by named types, so that unnamed embedded structs do not count.
-/
namespace TypeIdentity.Engine.Memory
open Promotion
variable {store : Store} {t : HostType} {memory : Memory} {name : String}

/-- Where no member of a name is behind a defined pointer, a method set has the name exactly when it
is exported, no field of the name is reached, and a method of the name is selected among all
members: by the number of named types on the way, which is the number of embedded fields entered if
the types of these are named or pointers to named types. -/
theorem mem_methods_iff_selects (hviews : SameViews store t) {entries : List MethodEntry}
    (h : (methods store t memory).1 = .ok entries) (hplain : Plainly store.graph t name) :
    ((∃ entry ∈ entries, entry.name = name) ↔ isExported name = true ∧
      Fieldless store.graph t name ∧ Selects store.graph t (·.depth) name) ∧
    (Ordinary store.graph t → ((∃ entry ∈ entries, entry.name = name) ↔ isExported name = true ∧
      Fieldless store.graph t name ∧ Selects store.graph t (·.embeddings) name)) := by
  obtain ⟨promoted, hp, hnames⟩ := exists_mem_promoted h
  have hdepth := (hnames name).trans (exists_promoted_iff hviews.coherent hp hplain)
  refine ⟨hdepth, fun ho => hdepth.trans ?_⟩
  rw [ho.selects_iff]

/-- An underlying type in the graph of a struct that embeds a pointer to itself is a struct. -/
theorem underlying_chain {u : HostType} {n : NamedView HostType}
    (hu : Seen chainStore.graph (.static chain) u) (hv : chainStore.view u = .ok (.named n)) :
    n.underlying = .static chainBody := by
  rcases seen_chain hu with rfl | rfl | rfl
  · cases view_chain.symm.trans hv
    rfl
  · cases view_chainBody.symm.trans hv
  · cases view_chainPointer.symm.trans hv

theorem plainly_chain (name : String) : Plainly chainStore.graph (.static chain) name := by
  refine plainly_of_seen (fun u n v hu hv hw => ?_) name
  rw [underlying_chain hu hv] at hw
  cases view_chainBody.symm.trans hw
  rfl

theorem ordinary_chain : Ordinary chainStore.graph (.static chain) where
  embedded hu hv hf _ := by
    rcases seen_chain hu with rfl | rfl | rfl
    · cases view_chain.symm.trans hv
    · cases view_chainBody.symm.trans hv
      obtain rfl := List.mem_singleton.1 hf
      rfl
    · cases view_chainPointer.symm.trans hv
  underlying hu hv hw := by
    rw [underlying_chain hu hv] at hw
    cases view_chainBody.symm.trans hw
    rfl

theorem mem_methods_iff_selects_chain :
    (methods chainStore (.static chain) { config := { maxTraversalDepth := 3 } }).1 =
      .ok [⟨"Len", .shape (.func ⟨[], [], false⟩), false, 0⟩] ∧
    Fieldless chainStore.graph (.static chain) "Len" ∧
    Selects chainStore.graph (.static chain) (·.embeddings) "Len" := by
  have hmethods : (methods chainStore (.static chain)
      { config := { maxTraversalDepth := 3 } }).1 = _ :=
    methods_of_promoted methods_chain fun p hp => by
      obtain rfl := List.mem_singleton.1 hp
      rfl
  obtain ⟨-, hfieldless, hselects⟩ := ((mem_methods_iff_selects sameViews_chain hmethods
    (plainly_chain "Len")).2 ordinary_chain).1 ⟨_, List.mem_singleton_self _, rfl⟩
  exact ⟨hmethods, hfieldless, hselects⟩

/-! ## Methods that selectors reach and method sets do not have -/

/-- `T` has a method `M`; it embeds `Part`, which has a method `N` and a field `M`, beside an
unnamed struct that embeds `Part`.  The type `Handle` is a pointer to `Part`. -/
def partStore : Store where
  decls := #[
    ⟨some (.shape (.struct [⟨"Box", .shape (.struct [embed 1 "Part"]), "", true⟩,
      embed 1 "Part"])), [⟨"M", ⟨[], [], false⟩, false⟩]⟩,
    ⟨some (.shape (.struct [fieldOf "M" .int])), [⟨"N", ⟨[], [], false⟩, false⟩]⟩,
    ⟨some (.shape (.pointer (ref 1 "Part"))), []⟩]
  nodes := #[]

def whole : HostType := .static (ref 0 "T")

def box : StaticType := .shape (.struct [embed 1 "Part"])

def wholeStep : Step HostType := ⟨whole, true, false⟩

def bodyStep : Step HostType :=
  ⟨.static (.shape (.struct [⟨"Box", box, "", true⟩, embed 1 "Part"])), false, false⟩

def boxStep : Step HostType := ⟨.static box, false, false⟩

def partStep : Step HostType := ⟨.static (ref 1 "Part"), true, false⟩

def partBodyStep : Step HostType := ⟨.static (.shape (.struct [fieldOf "M" .int])), false, false⟩

def int : HostType := .static (.shape (.basic .int))

theorem view_whole : partStore.view whole = .ok (.named ⟨"lib", "T", .resolved [], bodyStep.type,
    [⟨"M", ⟨[], [], false⟩, false⟩]⟩) := rfl

theorem view_bodyStep : partStore.view bodyStep.type = .ok (.shape (.struct
    [⟨"Box", boxStep.type, "", true⟩, ⟨"Part", partStep.type, "", true⟩])) := rfl

theorem view_boxStep : partStore.view boxStep.type =
    .ok (.shape (.struct [⟨"Part", partStep.type, "", true⟩])) := rfl

theorem view_partStep : partStore.view partStep.type = .ok (.named ⟨"lib", "Part", .resolved [],
    partBodyStep.type, [⟨"N", ⟨[], [], false⟩, false⟩]⟩) := rfl

theorem view_partBodyStep : partStore.view partBodyStep.type =
    .ok (.shape (.struct [⟨"M", int, "", false⟩])) := rfl

theorem view_int : partStore.view int = .ok (.shape (.basic .int)) := rfl

theorem seen_whole {t : HostType} (h : Seen partStore.graph whole t) :
    t ∈ [whole, bodyStep.type, boxStep.type, partStep.type, partBodyStep.type, int] := by
  simp only [List.mem_cons, List.not_mem_nil, or_false]
  induction h with
  | query => exact .inl rfl
  | component _ hv hc ih =>
    rcases ih with rfl | rfl | rfl | rfl | rfl | rfl
    · cases view_whole.symm.trans hv
    · cases view_bodyStep.symm.trans hv
      rcases List.mem_cons.1 hc with rfl | hc
      · exact .inr (.inr (.inl rfl))
      · exact .inr (.inr (.inr (.inl (List.mem_singleton.1 hc))))
    · cases view_boxStep.symm.trans hv
      exact .inr (.inr (.inr (.inl (List.mem_singleton.1 hc))))
    · cases view_partStep.symm.trans hv
    · cases view_partBodyStep.symm.trans hv
      exact .inr (.inr (.inr (.inr (.inr (List.mem_singleton.1 hc)))))
    · cases view_int.symm.trans hv
      cases hc
  | underlying _ hv ih =>
    rcases ih with rfl | rfl | rfl | rfl | rfl | rfl
    · cases view_whole.symm.trans hv
      exact .inr (.inl rfl)
    · cases view_bodyStep.symm.trans hv
    · cases view_boxStep.symm.trans hv
    · cases view_partStep.symm.trans hv
      exact .inr (.inr (.inr (.inr (.inl rfl))))
    · cases view_partBodyStep.symm.trans hv
    · cases view_int.symm.trans hv

theorem sameViews_whole : SameViews partStore whole := by
  intro t u v ht hu hs hv
  obtain rfl : t = u := by
    have ht := seen_whole ht
    have hu := seen_whole hu
    simp only [List.mem_cons, List.not_mem_nil, or_false] at ht hu
    rcases ht with rfl | rfl | rfl | rfl | rfl | rfl <;>
      rcases hu with rfl | rfl | rfl | rfl | rfl | rfl <;>
      first
      | rfl
      | refine absurd ((HostType.same_static _ _).symm.trans hs) ?_
        decide +kernel
  exact ⟨v, hv, rfl⟩

def partTrails : List (List Nat × Path HostType) :=
  [([], [wholeStep]), ([0], [bodyStep, wholeStep]), ([0, 0], [boxStep, bodyStep, wholeStep]),
    ([0, 0, 0], [partStep, boxStep, bodyStep, wholeStep]),
    ([0, 0, 0, 0], [partBodyStep, partStep, boxStep, bodyStep, wholeStep]),
    ([1, 0], [partStep, bodyStep, wholeStep]),
    ([0, 1, 0], [partBodyStep, partStep, bodyStep, wholeStep])]

section Steps
variable {i : Nat} {u : HostType} {v : View HostType}

theorem not_hop_partBodyStep : ¬Hop partStore.graph partBodyStep.type i u :=
  fun h => List.not_mem_nil ((mem_hops rfl rfl).2 h)

variable (hv : partStore.view u = .ok v)
include hv

theorem hop_wholeStep (h : Hop partStore.graph wholeStep.type i u) :
    i = 0 ∧ stepOf u v = bodyStep := by
  have hm : (i, u) ∈ [(0, bodyStep.type)] := (mem_hops rfl rfl).2 h
  cases List.mem_singleton.1 hm
  cases hv
  exact ⟨rfl, rfl⟩

theorem hop_bodyStep (h : Hop partStore.graph bodyStep.type i u) :
    (i = 0 ∧ stepOf u v = boxStep) ∨ (i = 1 ∧ stepOf u v = partStep) := by
  have hm : (i, u) ∈ [(0, boxStep.type), (1, partStep.type)] := (mem_hops rfl rfl).2 h
  rcases List.mem_cons.1 hm with h | hm
  · cases h
    cases hv
    exact .inl ⟨rfl, rfl⟩
  · cases List.mem_singleton.1 hm
    cases hv
    exact .inr ⟨rfl, rfl⟩

theorem hop_boxStep (h : Hop partStore.graph boxStep.type i u) : i = 0 ∧ stepOf u v = partStep := by
  have hm : (i, u) ∈ [(0, partStep.type)] := (mem_hops rfl rfl).2 h
  cases List.mem_singleton.1 hm
  cases hv
  exact ⟨rfl, rfl⟩

theorem hop_partStep (h : Hop partStore.graph partStep.type i u) :
    i = 0 ∧ stepOf u v = partBodyStep := by
  have hm : (i, u) ∈ [(0, partBodyStep.type)] := (mem_hops rfl rfl).2 h
  cases List.mem_singleton.1 hm
  cases hv
  exact ⟨rfl, rfl⟩

end Steps

theorem trail_whole {choices : List Nat} {path : Path HostType}
    (h : Trail partStore.graph whole choices path) : (choices, path) ∈ partTrails := by
  refine h.mem (fun v hv => ?_) fun choices s path i u v hm hh hv => ?_
  · cases hv
    exact List.mem_cons_self ..
  · simp only [partTrails, List.mem_cons, Prod.mk.injEq, List.cons.injEq, List.not_mem_nil,
      or_false] at hm ⊢
    rcases hm with ⟨rfl, rfl, rfl⟩ | ⟨rfl, rfl, rfl⟩ | ⟨rfl, rfl, rfl⟩ | ⟨rfl, rfl, rfl⟩ |
      ⟨rfl, rfl, rfl⟩ | ⟨rfl, rfl, rfl⟩ | ⟨rfl, rfl, rfl⟩
    · obtain ⟨rfl, he⟩ := hop_wholeStep hv hh
      simp [he]
    · rcases hop_bodyStep hv hh with ⟨rfl, he⟩ | ⟨rfl, he⟩ <;> simp [he]
    · obtain ⟨rfl, he⟩ := hop_boxStep hv hh
      simp [he]
    · obtain ⟨rfl, he⟩ := hop_partStep hv hh
      simp [he]
    · exact absurd hh not_hop_partBodyStep
    · obtain ⟨rfl, he⟩ := hop_partStep hv hh
      simp [he]
    · exact absurd hh not_hop_partBodyStep

/-- No other member named `M` is as shallow as the method of the type itself, and no other one named
`N` is as shallow as the method of the second embedded field. -/
theorem bears_whole {site : List Nat × Nat} {c : Selectable HostType}
    (h : Bears partStore.graph whole site c) :
    (c.member.name = "M" → c.embeddings = 0 → site = ([], 0)) ∧
      (c.member.name = "N" → 1 ≤ c.embeddings ∧ (c.embeddings = 1 → site = ([1, 0], 0))) := by
  obtain @⟨choices, path, s, v, i, k, ht, hp, hv, hk⟩ := h
  have hm := trail_whole ht
  simp only [partTrails, List.mem_cons, Prod.mk.injEq, List.cons.injEq, List.not_mem_nil,
    or_false] at hm
  rcases hm with ⟨rfl, rfl, rfl⟩ | ⟨rfl, rfl, rfl⟩ | ⟨rfl, rfl, rfl⟩ | ⟨rfl, rfl, rfl⟩ |
    ⟨rfl, rfl, rfl⟩ | ⟨rfl, rfl, rfl⟩ | ⟨rfl, rfl, rfl⟩ <;> cases hv
  case inr.inl =>
    rcases i with _ | _ | i <;> cases hk <;> decide
  all_goals
    rcases i with _ | i <;> cases hk
    decide

theorem whole_steps : Trail partStore.graph whole [] [wholeStep] ∧
    Trail partStore.graph whole [1, 0] [partStep, bodyStep, wholeStep] := by
  have hview : partStore.graph.view whole = .ok (.named _) := view_whole
  have hstart : Trail partStore.graph whole [] [wholeStep] := .start hview
  have hinside : Trail partStore.graph whole [0] [bodyStep, wholeStep] :=
    hstart.hop (.underlying view_whole) view_bodyStep
  exact ⟨hstart, hinside.hop (.embedded view_bodyStep (i := 1) rfl rfl) view_partStep⟩

theorem selects_whole : Selects partStore.graph whole (·.embeddings) "M" ∧
    Selects partStore.graph whole (·.embeddings) "N" := by
  obtain ⟨hstart, hnext⟩ := whole_steps
  have hplain : Path.Plain [partStep, bodyStep, wholeStep] :=
    plain_cons.2 ⟨fun h => Bool.false_ne_true h.1,
      plain_cons.2 ⟨fun h => Bool.false_ne_true h.1, List.IsChain.singleton _⟩⟩
  constructor
  · refine ⟨([], 0), _, ⟨"M", ⟨[], [], false⟩, false⟩,
      .intro hstart (List.IsChain.singleton _) view_whole rfl, rfl, rfl,
      fun h => (Bool.false_ne_true h).elim, ?_⟩
    intro site c hb hn
    exact ⟨Nat.zero_le _, (bears_whole hb).1 hn⟩
  · refine ⟨([1, 0], 0), _, ⟨"N", ⟨[], [], false⟩, false⟩,
      .intro hnext hplain view_partStep rfl, rfl, rfl, fun h => (Bool.false_ne_true h).elim, ?_⟩
    intro site c hb hn
    exact (bears_whole hb).2 hn

theorem methods_partStore {limit : Nat} (hlimit : limit = 256) :
    Promotion.methods partStore.graph limit whole = .ok [] ∧
    Promotion.methods partStore.graph limit (.static (ref 2 "Handle")) =
      .ok [⟨⟨"N", ⟨[], [], false⟩, false⟩, 1⟩] := by
  subst hlimit
  have hwhole : explore partStore.graph 256 1 256 [] [] whole =
      .ok ⟨["Box", "Part", "Part", "M", "M"], [⟨([0, 0, 0], 0),
        ⟨⟨"N", ⟨[], [], false⟩, false⟩, 1, false⟩⟩,
        ⟨([1, 0], 0), ⟨⟨"N", ⟨[], [], false⟩, false⟩, 1, false⟩⟩,
        ⟨([], 0), ⟨⟨"M", ⟨[], [], false⟩, false⟩, 0, false⟩⟩]⟩ := by
    rw [Store.graph_eq]
    with_unfolding_all rfl
  have hhandle : explore partStore.graph 256 1 256 [] [] (.static (ref 2 "Handle")) =
      .ok ⟨["M"], [⟨([0, 0], 0), ⟨⟨"N", ⟨[], [], false⟩, false⟩, 1, true⟩⟩]⟩ := by
    rw [Store.graph_eq]
    with_unfolding_all rfl
  rw [methods_of_explore rfl hwhole, methods_of_explore rfl hhandle]
  constructor <;> cbv

/-- Neither the method `M` of the type itself nor the method `N` of the type that it embeds is in
the method set; and a pointer type has a promoted method. -/
theorem methods_whole : SameViews partStore whole ∧ (methods partStore whole {}).1 = .ok [] ∧
    isExported "M" = true ∧ Selects partStore.graph whole (·.embeddings) "M" ∧
    isExported "N" = true ∧ Selects partStore.graph whole (·.embeddings) "N" ∧
    (methods partStore (.static (ref 2 "Handle")) {}).1 =
      .ok [⟨"N", .shape (.func ⟨[], [], false⟩), false, 1⟩] := by
  have hlimit : ({} : Memory).config.maxTraversalDepth = 256 := rfl
  obtain ⟨hwhole, hhandle⟩ := methods_partStore hlimit
  have hnone : (methods partStore whole {}).1 = .ok [] :=
    methods_of_promoted hwhole fun p hp => absurd hp List.not_mem_nil
  refine ⟨sameViews_whole, hnone, by decide +kernel, selects_whole.1, by decide +kernel,
    selects_whole.2, methods_of_promoted hhandle fun p hp => ?_⟩
  obtain rfl := List.mem_singleton.1 hp
  rfl

end TypeIdentity.Engine.Memory
