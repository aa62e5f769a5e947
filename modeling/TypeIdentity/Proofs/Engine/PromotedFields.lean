import Mathlib.Data.List.Permutation
import TypeIdentity.Proofs.Engine.Lookups
import TypeIdentity.Proofs.Promotion.HostMethodSets
import TypeIdentity.Proofs.Promotion.Returns

/-! # The fields that lookups find

A field that a lookup finds need not be the shallowest of its name: a branch in which two fields of
the name occur counts as a branch without one.  Where no branch is of that kind, the field is the
only one of its name, but for deeper ones on ways that come back to a type.
-/
namespace TypeIdentity.Engine.Memory
open Promotion
variable {store : Store} {t : HostType} {memory : Memory} {name : String}
  {found : Field TypeLiteral}

/-- The field that is found occurs, and whatever other field of the name occurs is in a branch in
which two of them occur.  If types that are the same have the same views, a field of the name that
is reached on another way, no deeper than the one found, also takes such a branch. -/
theorem ambiguous_of_field? (h : (field? store t name memory).1 = .ok (some found)) :
    ∃ site depth f before, Occurs store.graph (· = name) [] false t site depth f ∧
      ((literalFor store f.type before).1 = .ok found.type ∧ found.name = f.name ∧
        found.tag = f.tag ∧ found.embedded = f.embedded) ∧
      (∀ site' depth' f', Occurs store.graph (· = name) [] false t site' depth' f' →
        site' ≠ site → ∃ site'' depth'' f'',
          Occurs store.graph (· = name) [] false t site'' depth'' f'' ∧ site'' ≠ site' ∧
            LeaveTogether site site' site'') ∧
      (SameViews store t → ∀ types' site' depth' f',
        Reaches store.graph (· = name) false t types' site' depth' f' → depth' ≤ depth →
          site' ≠ site → AmbiguousBeside store.graph (· = name) t site) := by
  obtain ⟨f, before, hfield, hreported⟩ := exists_field_of_fieldBy? h
  obtain ⟨site, depth, ho, hothers⟩ := leaveTogether_of_search hfield
  refine ⟨site, depth, f, before, ho, hreported, hothers, ?_⟩
  intro hviews types' site' depth' f' hr
  exact hviews.coherent.ambiguousBeside ho hothers hr

/-! ## A field found beside an ambiguous branch -/

def ref (id : Nat) (name : String) : StaticType := .named ⟨id, "lib", name, []⟩ []

def embed (id : Nat) (name : String) : Field StaticType := ⟨name, ref id name, "", true⟩

def fieldOf (name : String) (type : BasicType) : Field StaticType :=
  ⟨name, .shape (.basic type), "", false⟩

def structOf (fields : List (Field StaticType)) : Definition StaticType StaticType :=
  ⟨some (.shape (.struct fields)), []⟩

/-- `T` embeds `A` and `B`; two embedded types of `A` have a field `N` each, and so does the one
embedded type of the one embedded type of `B`. -/
def lopsidedStore : Store where
  decls := #[structOf [embed 1 "A", embed 4 "B"], structOf [embed 2 "A1", embed 3 "A2"],
    structOf [fieldOf "N" .int], structOf [fieldOf "N" .string], structOf [embed 5 "B1"],
    structOf [embed 6 "B2"], structOf [fieldOf "N" .bool]]
  nodes := #[]

theorem literalFor_basic (store : Store) (b : BasicType) {memory : Memory}
    (hm : Sound store memory) : (literalFor store (.static (.shape (.basic b))) memory).1 =
      .ok (.shape (.basic b)) := by
  have hchildren : ∀ c ∈ (TypeLiteral.shape (.basic b)).children, False := by
    simp [TypeLiteral.children, Shape.children]
  have hpath : Unmarked (TypeLiteral.shape (.basic b)).path := by
    change Unmarked ""
    decide
  have hp : (TypeLiteral.shape (.basic b)).Portable :=
    ⟨.intro trivial fun c hc => (hchildren c hc).elim,
      .intro trivial fun c hc => (hchildren c hc).elim,
      .intro hpath fun c hc => (hchildren c hc).elim⟩
  have hlit : (StaticType.shape (.basic b)).literal = .shape (.basic b) := by
    rw [StaticType.literal_shape]
    rfl
  have hviewable : Viewable store (.shape (.basic b)) := viewable_basic b
  have hd := hviewable.denotes
  rw [hlit] at hd
  obtain ⟨after, he, -⟩ := returns_literalFor hd hp memory hm
  exact congrArg Prod.fst he

theorem field?_of_search {b : BasicType}
    (h : Promotion.field? store.graph ({} : Memory).config.maxTraversalDepth (· = name) t =
      .ok (some ⟨name, .static (.shape (.basic b)), "", false⟩)) :
    (field? store t name {}).1 = .ok (some ⟨name, .shape (.basic b), "", false⟩) := by
  obtain ⟨counters, hrun⟩ := fieldBy?_run store t (· = name) {}
  have hsound : Sound store { counters } :=
    ⟨(sound_fresh store {}).literals, (sound_fresh store {}).identities⟩
  have hlit := literalFor_basic store b hsound
  rw [field?, hrun, h, Outcome.run_lift_bind]
  cases hl : literalFor store (.static (.shape (.basic b))) { counters } with
  | mk answer after =>
    rw [hl] at hlit
    obtain rfl : answer = .ok (.shape (.basic b)) := hlit
    exact congrArg Prod.fst (Outcome.run_bind hl)

theorem search_lopsided : Promotion.field? lopsidedStore.graph ({} : Memory).config.maxTraversalDepth
    (· = "N") (.static (ref 0 "T")) = .ok (some ⟨"N", .static (.shape (.basic .bool)), "", false⟩) := by
  rw [Store.graph_eq]
  cbv

/-- The fields of the two embedded types of `A`. -/
theorem occurs_lopsided :
    Occurs lopsidedStore.graph (· = "N") [] false (.static (ref 0 "T")) [0, 0, 0, 0, 0, 0] 2
      ⟨"N", .static (.shape (.basic .int)), "", false⟩ ∧
    Occurs lopsidedStore.graph (· = "N") [] false (.static (ref 0 "T")) [0, 0, 0, 1, 0, 0] 2
      ⟨"N", .static (.shape (.basic .string)), "", false⟩ := by
  constructor
  · refine ⟨_, .inside (.underlying rfl) <| .inside (.embedded rfl rfl rfl rfl) <|
      .inside (.underlying rfl) <| .inside (.embedded rfl rfl rfl rfl) <|
      .inside (.underlying rfl) <| .direct rfl rfl rfl, ?_⟩
    simp [Apart, Store.graph, StaticType.same, Decl.same, Shape.agreeOn, agreeAll, ref, embed, fieldOf]
  · refine ⟨_, .inside (.underlying rfl) <| .inside (.embedded rfl rfl rfl rfl) <|
      .inside (.underlying rfl) <| .inside (.embedded rfl rfl rfl rfl) <|
      .inside (.underlying rfl) <| .direct rfl rfl rfl, ?_⟩
    simp [Apart, Store.graph, StaticType.same, Decl.same, Shape.agreeOn, agreeAll, ref, embed, fieldOf]

theorem field?_lopsided :
    (field? lopsidedStore (.static (ref 0 "T")) "N" {}).1 =
      .ok (some ⟨"N", .shape (.basic .bool), "", false⟩) ∧
    (∃ types site, Reaches lopsidedStore.graph (· = "N") false (.static (ref 0 "T")) types site 3
      ⟨"N", .static (.shape (.basic .bool)), "", false⟩) ∧
    ∃ types site, Reaches lopsidedStore.graph (· = "N") false (.static (ref 0 "T")) types site 2
      ⟨"N", .static (.shape (.basic .int)), "", false⟩ := by
  refine ⟨field?_of_search search_lopsided, ?_, ?_⟩
  · exact ⟨_, _, .inside (.underlying rfl) <| .inside (.embedded rfl rfl (i := 1) rfl rfl) <|
      .inside (.underlying rfl) <| .inside (.embedded rfl rfl (i := 0) rfl rfl) <|
      .inside (.underlying rfl) <| .inside (.embedded rfl rfl (i := 0) rfl rfl) <|
      .inside (.underlying rfl) <| .direct rfl (i := 0) rfl rfl⟩
  · obtain ⟨⟨types, hreaches, -⟩, -⟩ := occurs_lopsided
    exact ⟨types, _, hreaches⟩

/-- The field that is found, and one of the two that it is found beside. -/
theorem ambiguous_of_field?_lopsided :
    (field? lopsidedStore (.static (ref 0 "T")) "N" {}).1 =
      .ok (some ⟨"N", .shape (.basic .bool), "", false⟩) ∧
    ∃ site depth f site' f', Occurs lopsidedStore.graph (· = "N") [] false (.static (ref 0 "T"))
        site depth f ∧ f.name = "N" ∧
      Occurs lopsidedStore.graph (· = "N") [] false (.static (ref 0 "T")) site' 2 f' ∧
        site' ≠ site ∧ ∃ site'' depth'' f'', Occurs lopsidedStore.graph (· = "N") [] false
          (.static (ref 0 "T")) site'' depth'' f'' ∧ site'' ≠ site' ∧
            LeaveTogether site site' site'' := by
  have hfound : (field? lopsidedStore (.static (ref 0 "T")) "N" {}).1 =
      .ok (some ⟨"N", .shape (.basic .bool), "", false⟩) := field?_of_search search_lopsided
  obtain ⟨site, depth, f, before, ho, ⟨-, hname, -⟩, hothers, -⟩ := ambiguous_of_field? hfound
  obtain ⟨hfirst, hsecond⟩ := occurs_lopsided
  -- the two fields differ in their places, so one of them is not the field that is found
  obtain ⟨site', f', ho', hne⟩ : ∃ site' f', Occurs lopsidedStore.graph (· = "N") [] false
      (.static (ref 0 "T")) site' 2 f' ∧ site' ≠ site := by
    by_cases hs : [0, 0, 0, 0, 0, 0] = site
    · exact ⟨_, _, hsecond, by simp [← hs]⟩
    · exact ⟨_, _, hfirst, hs⟩
  exact ⟨hfound, site, depth, f, site', f', ho, hname.symm, ho', hne,
    hothers site' 2 f' ho' hne⟩

end TypeIdentity.Engine.Memory
