import TypeIdentity.Proofs.Engine.Findings
import TypeIdentity.Proofs.Runs
import Mathlib.Data.Set.Basic

/-! # What is recalled

Finding the literal of a type succeeds again when more is remembered than the first time, as long as
what is remembered is remembered with its components: they are known where a type is not walked
because it is known itself.
-/
namespace TypeIdentity

namespace StaticType

theorem children_nominal (t : StaticType) : t.nominal.children = t.children.map nominal := by
  cases t with
  | shape s => rw [nominal_shape, children, children, Shape.children_mapChildren]
  | named d args => rw [nominal_named, children, children]
  | param index name => rw [nominal]; rfl
  | tuple items | union items => rw [nominal, children, children, List.attach_map_val]

/-- Types that are the same have components that are the same. -/
theorem exists_child_of_same {t u c : StaticType} (h : t.nominal = u.nominal) (hc : c ∈ u.children) :
    ∃ b ∈ t.children, b.nominal = c.nominal := by
  have hm : c.nominal ∈ t.nominal.children := by
    rw [h, children_nominal]
    exact List.mem_map_of_mem hc
  rw [children_nominal] at hm
  exact List.mem_map.1 hm

theorem child_induct {motive : StaticType → Prop}
    (h : ∀ t, (∀ c ∈ t.children, motive c) → motive t) (t : StaticType) : motive t := by
  induction t with
  | shape s ih => exact h _ ih
  | named d args ih => exact h _ ih
  | param index name => exact h _ fun c hc => absurd hc List.not_mem_nil
  | tuple items ih | union items ih => exact h _ ih

end StaticType

namespace Engine.Memory
open Relation StaticType
variable {store : Store} {memory after built g g' m m' : Memory} {t u : StaticType}
  {ts : List StaticType}

/-- The static types that the memory knows. -/
def recalled (memory : Memory) : Set StaticType := {t | HostType.static t ∈ memory.identities}

theorem mem_recalled_of_same (h : t ∈ memory.recalled) (hs : t.nominal = u.nominal) :
    u ∈ memory.recalled := by
  have hbeq : (HostType.static t == HostType.static u) = true :=
    HostType.same_iff.2 (congrArg HostType.static hs)
  exact (Std.HashMap.mem_congr hbeq).1 h

theorem identity?_of_mem (h : t ∈ memory.recalled) :
    ∃ lit, memory.identity? (.static t) = some lit := by
  rw [identity?_eq]
  exact Option.isSome_iff_exists.1 (Std.HashMap.mem_iff_isSome_getElem?.1 h)

theorem identity?_of_not_mem (h : t ∉ memory.recalled) :
    memory.identity? (.static t) = none := by
  rw [identity?_eq]
  exact Std.HashMap.getElem?_eq_none h

/-- What is known is known with its components. -/
def Closed (memory : Memory) : Prop :=
  ∀ t ∈ memory.recalled, ∀ c ∈ t.children, c ∈ memory.recalled

theorem closed_fresh (config : Config) : Closed { config } := by
  intro t ht
  exact absurd ht Std.HashMap.not_mem_empty

/-! ## Looking up one type -/

/-- Looks the literal of a static type up. -/
abbrev look (store : Store) (t : StaticType) : EngineM TypeLiteral := literalFor store (.static t)

theorem runs_known (ht : t ∈ m.recalled) : Runs (look store t) m m' ↔ m' = m.hit := by
  obtain ⟨lit, hlit⟩ := identity?_of_mem ht
  have hrun : look store t m = (.ok lit, m.hit) := literalFor_known hlit
  constructor
  · rintro ⟨a, ha⟩
    exact (Prod.mk.inj (ha.symm.trans hrun)).2
  · rintro rfl
    exact ⟨lit, hrun⟩

/-- A type whose components are looked up to build its literal. -/
def Shown (store : Store) (t : StaticType) : Prop := ∃ v, store.view (.static t) = .ok v

theorem shown_named {d : Decl} {args : List StaticType} :
    Shown store (.named d args) ↔ ∃ v, store.viewDecl d args = .ok v := by
  constructor
  · rintro ⟨v, hv⟩
    cases hd : store.viewDecl d args with
    | error e => simp [Store.view, Store.viewStatic, hd, bind, Except.bind] at hv
    | ok n => exact ⟨n, rfl⟩
  · rintro ⟨v, hv⟩
    exact ⟨_, view_static_of hv⟩

/-- The components of a literal that is built are what is found for the components of the type. -/
theorem children_build (h : Shown store t) :
    TypeLiteral.children <$> build store (.static t) = t.children.mapM (look store) := by
  cases t with
  | shape s =>
    rw [build_shape, Functor.map_map]
    exact Shape.children_traverse (look store) s
  | named d args =>
    obtain ⟨v, hv⟩ := shown_named.1 h
    rw [build_named hv, Functor.map_map]
    exact id_map _
  | param | tuple | union =>
    obtain ⟨v, hv⟩ := h
    cases hv

theorem runs_build (h : Shown store t) :
    Runs (build store (.static t)) = Runs (t.children.mapM (look store)) := by
  rw [← children_build h, runs_map]

theorem shown_of_runs (h : Runs (build store (.static t)) m m') : Shown store t := by
  obtain ⟨a, ha⟩ := h
  cases hv : store.view (.static t) with
  | ok v => exact ⟨v, hv⟩
  | error e =>
    rw [build, hv] at ha
    cases (Prod.mk.inj ha).1

/-- The memory in which the literal of a type has been shared and remembered. -/
def learnt (memory : Memory) (t : HostType) (lit : TypeLiteral) : Memory :=
  ((share lit >>= remember t) memory).2

theorem runs_learnt {t : HostType} {lit : TypeLiteral} :
    Runs (share lit >>= remember t) m m' ↔ m' = m.learnt t lit := by
  constructor
  · rintro ⟨a, ha⟩
    rw [learnt, ha]
  · rintro rfl
    exact ⟨_, rfl⟩

theorem mem_recalled_learnt {lit : TypeLiteral} :
    u ∈ (m.learnt (.static t) lit).recalled ↔ t.nominal = u.nominal ∨ u ∈ m.recalled := by
  have hkeys : (m.learnt (.static t) lit).identities =
      m.identities.insertIfNew (.static t) (m.tables.literals.intern lit).1 := by
    rw [learnt, Outcome.run_bind (share_eq lit m), remember_eq]
  rw [recalled, Set.mem_ofPred_eq, hkeys, Std.HashMap.mem_insertIfNew]
  exact or_congr (HostType.same_iff.trans ⟨HostType.static.inj, congrArg _⟩) Iff.rfl

theorem run_unknown (ht : t ∉ m.recalled) : look store t m =
    (build store (.static t) >>= fun lit => share lit >>= remember (.static t)) m.missed :=
  literalFor_unknown (identity?_of_not_mem ht)

/-- Before a type is remembered, its components have been looked up. -/
theorem children_of_runs (ht : t ∉ m.recalled) (h : Runs (look store t) m m') :
    Shown store t ∧ ∃ built, Runs (t.children.mapM (look store)) m.missed built ∧
      ∀ u, u ∈ m'.recalled ↔ t.nominal = u.nominal ∨ u ∈ built.recalled := by
  rw [Runs, run_unknown ht] at h
  obtain ⟨lit, built, hb, hl⟩ := runs_bind_iff.1 h
  have hs : Shown store t := shown_of_runs ⟨lit, hb⟩
  obtain rfl := runs_learnt.1 hl
  exact ⟨hs, built, runs_build hs ▸ ⟨lit, hb⟩, fun u => mem_recalled_learnt⟩

theorem exists_runs_of_children (ht : t ∉ m.recalled) (hs : Shown store t)
    (h : Runs (t.children.mapM (look store)) m.missed built) :
    ∃ m', Runs (look store t) m m' ∧
      ∀ u, u ∈ m'.recalled ↔ t.nominal = u.nominal ∨ u ∈ built.recalled := by
  obtain ⟨lit, hb⟩ := (runs_build hs).symm ▸ h
  refine ⟨built.learnt (.static t) lit, ?_, fun u => mem_recalled_learnt⟩
  rw [Runs, run_unknown ht]
  exact runs_bind_iff.2 ⟨lit, built, hb, runs_learnt.2 rfl⟩

/-! ## Looking up types again -/

/-- Looking up a known type teaches nothing about other types, even where it is not known. -/
theorem recalled_subset_of_runs (hm : m.Closed) (ht : t ∈ m.recalled)
    (hg : g.recalled ⊆ m.recalled) (h : Runs (look store t) g g') : g'.recalled ⊆ m.recalled := by
  induction t using child_induct generalizing g g' with
  | h t ih =>
    by_cases hk : t ∈ g.recalled
    · rw [(runs_known hk).1 h]
      exact hg
    · obtain ⟨-, built, hr, hb⟩ := children_of_runs hk h
      have hbuilt : built.recalled ⊆ m.recalled := by
        refine preserved_of_runs (P := fun g => g.recalled ⊆ m.recalled) _ ?_ hg hr
        exact fun c hc a b ha hab => ih c hc (hm t ht c hc) ha hab
      intro u hu
      rcases (hb u).1 hu with hs | hu
      · exact mem_recalled_of_same ht hs
      · exact hbuilt hu

/-- The types have been looked up in a closed memory: they are known, and nothing is forgotten. -/
structure Grown (store : Store) (ts : List StaticType) (m m' : Memory) : Prop where
  run : Runs (ts.mapM (look store)) m m'
  closed : m'.Closed
  kept : m.recalled ⊆ m'.recalled
  known : ∀ t ∈ ts, t ∈ m'.recalled

theorem Grown.nil (hm : m.Closed) : Grown store [] m m where
  run := by rw [runs_nil]
  closed := hm
  kept := Set.Subset.rfl
  known := by simp

theorem Grown.cons (h : Grown store [t] m built) (hs : Grown store ts built m') :
    Grown store (t :: ts) m m' where
  run := by
    rw [runs_cons]
    exact ⟨built, runs_singleton (look store) t ▸ h.run, hs.run⟩
  closed := hs.closed
  kept := h.kept.trans hs.kept
  known u hu := by
    rcases List.mem_cons.1 hu with rfl | hu
    · exact hs.kept (h.known u (List.mem_singleton_self u))
    · exact hs.known u hu

theorem Grown.hit (hm : m.Closed) (ht : t ∈ m.recalled) : Grown store [t] m m.hit where
  run := by
    rw [runs_singleton]
    exact (runs_known ht).2 rfl
  closed := hm
  kept := Set.Subset.rfl
  known u hu := List.mem_singleton.1 hu ▸ ht

/-- Once the components of a type are known, the type can be found. -/
theorem Grown.parent (ht : t ∉ m.recalled) (hs : Shown store t)
    (h : Grown store t.children m.missed built) :
    ∃ m', Grown store [t] m m' ∧ built.recalled ⊆ m'.recalled := by
  obtain ⟨m', hr, hm⟩ := exists_runs_of_children ht hs h.run
  have hkept : built.recalled ⊆ m'.recalled := fun u hu => (hm u).2 (.inr hu)
  refine ⟨m', ⟨(runs_singleton (look store) t).symm ▸ hr, ?_, h.kept.trans hkept, ?_⟩, hkept⟩
  · intro u hu c hc
    rcases (hm u).1 hu with hsame | hu
    · obtain ⟨b, hb, hbc⟩ := exists_child_of_same hsame hc
      exact hkept (mem_recalled_of_same (h.known b hb) hbc)
    · exact hkept (h.closed u hu c hc)
  · intro u hu
    obtain rfl := List.mem_singleton.1 hu
    exact (hm u).2 (.inl rfl)

/-- A type that was found once is found again when more is known, and then all is known that was
known the first time. -/
theorem grown_again (h : Runs (look store t) g g') (hg : g.recalled ⊆ m.recalled)
    (hm : m.Closed) : ∃ m', Grown store [t] m m' ∧ g'.recalled ⊆ m'.recalled := by
  induction t using child_induct generalizing g g' m with
  | h t ih =>
    have hall (ts : List StaticType) (hts : ∀ c ∈ ts, c ∈ t.children) {g g' m : Memory}
        (h : Runs (ts.mapM (look store)) g g') (hg : g.recalled ⊆ m.recalled) (hm : m.Closed) :
        ∃ m', Grown store ts m m' ∧ g'.recalled ⊆ m'.recalled := by
      induction ts generalizing g m with
      | nil =>
        rw [runs_nil] at h
        exact ⟨m, .nil hm, h ▸ hg⟩
      | cons c ts ihs =>
        rw [runs_cons] at h
        obtain ⟨b, hc, hr⟩ := h
        obtain ⟨n, hn, hb⟩ := ih c (hts c (List.mem_cons_self ..)) hc hg hm
        obtain ⟨m', hm', hg'⟩ :=
          ihs (fun d hd => hts d (List.mem_cons_of_mem _ hd)) hr hb hn.closed
        exact ⟨m', .cons hn hm', hg'⟩
    by_cases hk : t ∈ m.recalled
    · exact ⟨m.hit, .hit hm hk, recalled_subset_of_runs hm hk hg h⟩
    · have hkg : t ∉ g.recalled := fun ht => hk (hg ht)
      obtain ⟨hs, b, hr, hb⟩ := children_of_runs hkg h
      have hmissed : m.missed.Closed := hm
      have hgm : g.missed.recalled ⊆ m.missed.recalled := hg
      obtain ⟨n, hn, hbn⟩ := hall t.children (fun _ hc => hc) hr hgm hmissed
      obtain ⟨m', hm', hnm⟩ := hn.parent hk hs
      refine ⟨m', hm', fun u hu => ?_⟩
      rcases (hb u).1 hu with hsame | hu
      · exact mem_recalled_of_same (hm'.known t (List.mem_singleton_self t)) hsame
      · exact hnm (hbn hu)

/-! ## Types that are always found -/

/-- Found from every closed memory. -/
def Findable (store : Store) (t : StaticType) : Prop :=
  ∀ m : Memory, m.Closed → ∃ m', Grown store [t] m m'

theorem findable_of_fresh {config : Config}
    (h : ∃ lit, (literalFor store (.static t) { config }).1 = .ok lit) : Findable store t := by
  intro m hm
  obtain ⟨lit, hlit⟩ := h
  have hrun : Runs (look store t) { config } (literalFor store (.static t) { config }).2 :=
    ⟨lit, Prod.ext hlit rfl⟩
  have hnone : recalled { config } ⊆ m.recalled :=
    fun u hu => absurd hu Std.HashMap.not_mem_empty
  obtain ⟨m', hm', -⟩ := grown_again hrun hnone hm
  exact ⟨m', hm'⟩

theorem Findable.all (h : ∀ t ∈ ts, Findable store t) (hm : m.Closed) :
    ∃ m', Grown store ts m m' := by
  induction ts generalizing m with
  | nil => exact ⟨m, .nil hm⟩
  | cons t ts ih =>
    obtain ⟨n, hn⟩ := h t (List.mem_cons_self ..) m hm
    obtain ⟨m', hm'⟩ := ih (fun c hc => h c (List.mem_cons_of_mem _ hc)) hn.closed
    exact ⟨m', .cons hn hm'⟩

/-- A type that is shown is found if its components are. -/
theorem Findable.parent (hs : Shown store t) (h : ∀ c ∈ t.children, Findable store c) :
    Findable store t := by
  intro m hm
  by_cases hk : t ∈ m.recalled
  · exact ⟨m.hit, .hit hm hk⟩
  · have hmissed : m.missed.Closed := hm
    obtain ⟨n, hn⟩ := Findable.all h hmissed
    obtain ⟨m', hm', -⟩ := hn.parent hk hs
    exact ⟨m', hm'⟩

theorem findable_of_viewable (h : Viewable store t) : Findable store t := by
  induction h with
  | shape _ ih => exact .parent ⟨_, rfl⟩ ih
  | named hv _ ih => exact .parent (shown_named.2 ⟨_, hv⟩) ih

theorem Findable.shown (h : Findable store t) : Shown store t := by
  obtain ⟨m', hm'⟩ := h {} (closed_fresh {})
  have hnone : t ∉ recalled {} := Std.HashMap.not_mem_empty
  exact (children_of_runs hnone (runs_singleton (look store) t ▸ hm'.run)).1

theorem Findable.literal (h : Findable store t) (config : Config) :
    ∃ lit, (literalFor store (.static t) { config }).1 = .ok lit := by
  obtain ⟨m', hm'⟩ := h { config } (closed_fresh config)
  obtain ⟨lit, hlit⟩ := runs_singleton (look store) t ▸ hm'.run
  exact ⟨lit, congrArg Prod.fst hlit⟩

end Engine.Memory
end TypeIdentity
