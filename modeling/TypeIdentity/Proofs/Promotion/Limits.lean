import TypeIdentity.Proofs.Promotion.HostMethodSets
import TypeIdentity.Proofs.Promotion.Searches

/-! # Limits of paths

A method set is not found exactly when a simple path from the query is longer than the limit, and
the limit has no other effect: what is found with one limit is found with every larger one.  The
same holds of fields as far as larger limits are concerned; a search for a field stops early and
need not run into the limit where the methods do.
-/
namespace TypeIdentity.Promotion
variable {α : Type} {g : TypeGraph α} {query : α} {limit limit' base budget budget' : Nat}

/-! ## Views that walks ask for -/

/-- The types that embedding leads to by the steps of paths. -/
inductive Entered (g : TypeGraph α) (query : α) : α → Prop
  | query : Entered g query query
  | hop {t u : α} {i : Nat} (h : Entered g query t) (hh : Hop g t i u) : Entered g query u

/-- All views succeed that a walk may ask for: those of the types that embedding leads to, and those
that tell whether the pointees of such types are interfaces. -/
structure Visible (g : TypeGraph α) (query : α) : Prop where
  view : ∀ t, Entered g query t → ∃ v, g.view t = .ok v
  pointee : ∀ t e, Entered g query t → g.view t = .ok (.shape (.pointer e)) →
    ∃ b, g.isInterface e = .ok b

theorem view_of_isInterface {e : α} {b : Bool} (h : g.isInterface e = .ok b) :
    ∃ v, g.view e = .ok v := by
  cases hv : g.view e with
  | ok v => exact ⟨v, rfl⟩
  | error x => simp [TypeGraph.isInterface, hv, bind, Except.bind] at h

namespace Visible
variable (hviews : Visible g query) {t e : α} {v : View α}
include hviews

theorem follows (ht : Entered g query t) (hv : g.view t = .ok (.shape (.pointer e))) :
    ∃ b, Walk.follows g e = .ok b := by
  obtain ⟨b, hb⟩ := hviews.pointee t e ht hv
  obtain ⟨w, hw⟩ := view_of_isInterface hb
  refine ⟨if w.isPointer then false else !b, ?_⟩
  simp only [Walk.follows, hw, hb, bind, Except.bind]
  split <;> rfl

theorem hops (ht : Entered g query t) (hv : g.view t = .ok v) :
    ∃ l, Promotion.hops g v = .ok l := by
  rcases v with (_ | _ | _ | _ | _ | _ | _ | _ | e) | n
  case shape.pointer =>
    obtain ⟨b, hb⟩ := hviews.follows ht hv
    refine ⟨if b then [(0, e)] else [], ?_⟩
    simp only [Promotion.hops, hb, bind, Except.bind]
    cases b <;> rfl
  all_goals exact ⟨_, rfl⟩

theorem ownDepth : ∃ base, Promotion.ownDepth g query = .ok base := by
  obtain ⟨v, hv⟩ := hviews.view query .query
  rcases v with (_ | _ | _ | _ | _ | _ | _ | _ | e) | n
  case shape.pointer =>
    obtain ⟨b, hb⟩ := hviews.pointee query e .query hv
    obtain ⟨w, hw⟩ := view_of_isInterface hb
    refine ⟨if w.isNamed then 1 else 0, ?_⟩
    simp only [Promotion.ownDepth, hv, hw, bind, Except.bind]
    split <;> rfl
  all_goals exact ⟨_, by rw [Promotion.ownDepth, hv]; rfl⟩

end Visible

/-! ## Explorations within limits -/

theorem exists_error_of_mapM {β γ : Type} {f : β → Except Error γ} {l : List β} {e : Error}
    (h : l.mapM f = .error e) : ∃ b ∈ l, f b = .error e := by
  induction l with
  | nil => cases h
  | cons b l ih =>
    rw [List.mapM_cons] at h
    cases hb : f b with
    | error e' =>
      simp only [hb, bind, Except.bind, Except.error.injEq] at h
      exact ⟨b, List.mem_cons_self .., h ▸ hb⟩
    | ok c =>
      cases hl : l.mapM f with
      | error e' =>
        simp only [hb, hl, bind, Except.bind, Except.error.injEq] at h
        obtain ⟨b', hm, hb'⟩ := ih (h ▸ hl)
        exact ⟨b', List.mem_cons_of_mem _ hm, hb'⟩
      | ok cs => simp [hb, hl, bind, Except.bind, pure, Except.pure] at h

theorem mapM_ok_imp {β γ : Type} {f f' : β → Except Error γ} {l : List β} {cs : List γ}
    (h : l.mapM f = .ok cs) (hf : ∀ b ∈ l, ∀ c, f b = .ok c → f' b = .ok c) :
    l.mapM f' = .ok cs := by
  induction l generalizing cs with
  | nil => exact h
  | cons b l ih =>
    obtain ⟨c, cs, hb, hl, rfl⟩ := mapM_cons_ok h
    have hrest := ih hl fun b' hm => hf b' (List.mem_cons_of_mem _ hm)
    simp only [List.mapM_cons, hf b (List.mem_cons_self ..) c hb, hrest, bind, Except.bind, pure,
      Except.pure]

section Explore
variable {choices choices' : List Nat} {path path' : Path α} {t : α} {v : View α}

/-- The paths onward that a successful exploration has been on are within its budget. -/
theorem length_le_of_explore {found : Survey α}
    (h : explore g limit base budget choices path t = .ok found)
    (ho : Onward g choices path t choices' path' v) : path'.length ≤ path.length + budget := by
  induction ho generalizing budget found with
  | here hn hv =>
    obtain ⟨hvisit, -⟩ | ⟨b, w, l, below, -, -, rfl, -⟩ := explore_ok h
    · rw [hn] at hvisit
      cases hvisit
    · rw [List.length_cons]
      omega
  | @there _ _ _ _ _ u i _ _ hn hv hh ho ih =>
    obtain ⟨hvisit, -⟩ | ⟨b, w, l, below, -, hw, rfl, hl, hbelow, -⟩ := explore_ok h
    · rw [hn] at hvisit
      cases hvisit
    · obtain rfl := Except.ok.inj (hv.symm.trans hw)
      obtain ⟨found', hfound⟩ := exists_of_mapM hbelow ((mem_hops hv hl).2 hh)
      have hle := ih hfound
      rw [List.length_cons] at hle
      omega

/-- Where all views succeed, an exploration fails at the limit only, when a path onward is longer
than its budget. -/
theorem exists_onward_of_explore (hviews : Visible g query) (ht : Entered g query t) {e : Error}
    (h : explore g limit base budget choices path t = .error e) :
    (∃ u, e = .traversalLimit limit (g.describe u)) ∧ ∃ choices' path' v,
      Onward g choices path t choices' path' v ∧ path.length + budget < path'.length := by
  induction budget generalizing choices path t with
  | zero =>
    cases hn : path.visits g t with
    | true =>
      rw [explore_visited 0 hn] at h
      cases h
    | false =>
      obtain ⟨v, hv⟩ := hviews.view t ht
      rw [explore_limited hn hv] at h
      exact ⟨⟨t, (Except.error.inj h).symm⟩, _, _, v, .here hn hv, Nat.lt_succ_self _⟩
  | succ budget ih =>
    cases hn : path.visits g t with
    | true =>
      rw [explore_visited _ hn] at h
      cases h
    | false =>
      obtain ⟨v, hv⟩ := hviews.view t ht
      obtain ⟨l, hl⟩ := hviews.hops ht hv
      rw [explore_new _ hn hv, hl] at h
      cases hb : l.mapM fun h =>
          explore g limit base budget (h.1 :: choices) (stepOf t v :: path) h.2 with
      | ok below => simp [hb, bind, Except.bind] at h
      | error e' =>
        simp only [hb, bind, Except.bind, Except.error.injEq] at h
        subst h
        obtain ⟨x, hx, hfail⟩ := exists_error_of_mapM hb
        have hh := (mem_hops hv hl).1 hx
        obtain ⟨hlimit, choices', path', w, ho, hlt⟩ := ih (ht.hop hh) hfail
        refine ⟨hlimit, choices', path', w, .there hn hv hh ho, ?_⟩
        rw [List.length_cons] at hlt
        omega

/-- What is found within a budget is found within every larger one. -/
theorem explore_mono {found : Survey α} (hle : budget ≤ budget')
    (h : explore g limit base budget choices path t = .ok found) :
    explore g limit' base budget' choices path t = .ok found := by
  induction budget using Nat.strongRecOn generalizing budget' choices path t found with
  | ind budget ih =>
    obtain ⟨hn, rfl⟩ | ⟨b, v, l, below, hn, hv, rfl, hl, hb, rfl⟩ := explore_ok h
    · exact explore_visited _ hn
    · obtain ⟨b', rfl⟩ := Nat.exists_eq_add_of_lt hle
      have hbelow := mapM_ok_imp hb fun x _ c hc =>
        ih b (Nat.lt_succ_self b) (Nat.le_add_right b b') hc
      rw [explore_new _ hn hv, hl]
      simp only [bind, Except.bind, hbelow]

end Explore

/-- The field that is found within a budget is found within every larger one. -/
theorem search_mono {accepts : String → Bool} {path : List α} {embedded : Bool} {t : α}
    {found : Option (Field α)} (hle : budget ≤ budget')
    (h : search g accepts limit budget path embedded t = .ok found) :
    search g accepts limit' budget' path embedded t = .ok found := by
  induction budget generalizing budget' path embedded t found with
  | zero =>
    cases hn : path.any fun s => g.same s t with
    | true => rw [search_visited hn] at h ⊢; exact h
    | false =>
      cases hv : g.view t with
      | error e => rw [search_unviewed hn hv] at h; cases h
      | ok v => rw [search_limited hn hv] at h; cases h
  | succ budget ih =>
    obtain ⟨b, rfl⟩ := Nat.exists_eq_add_of_lt hle
    cases hn : path.any fun s => g.same s t with
    | true => rw [search_visited hn] at h ⊢; exact h
    | false =>
      cases hv : g.view t with
      | error e => rw [search_unviewed hn hv] at h; cases h
      | ok v =>
        by_cases hd : (v.fields.filter fun f => accepts f.name) = []
        · rw [search_inward hn hv hd] at h ⊢
          cases hl : inward g embedded v with
          | error e => simp [hl, bind, Except.bind] at h
          | ok l =>
            cases hh : l.mapM fun x =>
                search g accepts limit budget (t :: path) (embedded || v.isStruct) x.2 with
            | error e => simp [hl, hh, bind, Except.bind] at h
            | ok hits =>
              have hhits := mapM_ok_imp hh fun x _ r hr => ih (Nat.le_add_right budget b) hr
              simp only [hl, hh, bind, Except.bind] at h
              simp only [bind, Except.bind, hhits]
              exact h
        · rw [search_direct hn hv hd] at h ⊢
          exact h

/-! ## Exactness -/

/-- A simple path from the query is longer than the limit. -/
def Exceeded (g : TypeGraph α) (limit : Nat) (query : α) : Prop :=
  ∃ choices path, Trail g query choices path ∧ Simple g path ∧ limit < path.length

theorem exceeded_iff : Exceeded g limit query ↔
    ∃ choices path v, Onward g [] [] query choices path v ∧ limit < path.length := by
  constructor
  · rintro ⟨choices, path, ht, hs, hlt⟩
    cases path with
    | nil => cases hlt
    | cons s path =>
      obtain ⟨v, hv, -⟩ := ht.view
      exact ⟨choices, _, v, onward_of_trail ht hs hv, hlt⟩
  · rintro ⟨choices, path, v, ho, hlt⟩
    obtain ⟨s, p, rfl, ht, hs, -⟩ := onward_iff_trail.1 ho
    exact ⟨choices, s :: p, ht, hs, hlt⟩

theorem methods_mono {result : List (Promoted α)} (hle : limit ≤ limit')
    (h : methods g limit query = .ok result) : methods g limit' query = .ok result := by
  obtain ⟨base, found, hbase, hfound, rfl⟩ := methods_ok h
  have hmore : explore g limit' base limit' [] [] query = .ok found := explore_mono hle hfound
  rw [methods_eq, hbase]
  simp only [bind, Except.bind, hmore]

/-- The methods of a type all of whose views succeed are found, or a path exceeds the limit. -/
theorem methods_within (hviews : Visible g query) :
    (¬Exceeded g limit query ∧ ∃ result, methods g limit query = .ok result) ∨
      Exceeded g limit query ∧
        ∃ u, methods g limit query = .error (.traversalLimit limit (g.describe u)) := by
  obtain ⟨base, hbase⟩ := hviews.ownDepth
  rw [methods_eq, hbase]
  simp only [bind, Except.bind]
  cases hfound : explore g limit base limit [] [] query with
  | ok found =>
    refine .inl ⟨fun hlong => ?_, _, rfl⟩
    obtain ⟨choices, path, v, ho, hlt⟩ := exceeded_iff.1 hlong
    have hle := length_le_of_explore hfound ho
    rw [List.length_nil, Nat.zero_add] at hle
    omega
  | error e =>
    obtain ⟨⟨u, rfl⟩, choices, path, v, ho, hlt⟩ := exists_onward_of_explore hviews .query hfound
    rw [List.length_nil, Nat.zero_add] at hlt
    exact .inr ⟨exceeded_iff.2 ⟨choices, path, v, ho, hlt⟩, u, rfl⟩

/-- Where all views succeed that a walk may ask for, the methods of a type are not found, for the
limit's sake, exactly when a simple path is longer than the limit, and they are found otherwise.
Methods and fields that are found with one limit are found with every larger one. -/
theorem limit_exact (g : TypeGraph α) (limit : Nat) (query : α) :
    (Visible g query →
      ((∃ u, methods g limit query = .error (.traversalLimit limit u)) ↔ Exceeded g limit query) ∧
      ((∃ result, methods g limit query = .ok result) ↔ ¬Exceeded g limit query)) ∧
    ∀ limit', limit ≤ limit' →
      (∀ result, methods g limit query = .ok result → methods g limit' query = .ok result) ∧
      ∀ accepts found, field? g limit accepts query = .ok found →
        field? g limit' accepts query = .ok found := by
  refine ⟨fun hviews => ?_, fun limit' hle => ⟨fun result => methods_mono hle,
    fun accepts found => search_mono hle⟩⟩
  rcases methods_within hviews with ⟨hshort, result, hr⟩ | ⟨hlong, u, hu⟩
  · have hfails : ¬∃ u, methods g limit query = .error (.traversalLimit limit u) := by
      rintro ⟨u, hu⟩
      cases hr.symm.trans hu
    exact ⟨iff_of_false hfails hshort, iff_of_true ⟨result, hr⟩ hshort⟩
  · have hfound : ¬∃ result, methods g limit query = .ok result := by
      rintro ⟨result, hr⟩
      cases hr.symm.trans hu
    exact ⟨iff_of_true ⟨_, hu⟩ hlong, iff_of_false hfound fun hshort => hshort hlong⟩

theorem Entered.seen {t : α} (h : Entered g query t) : Seen g query t := by
  induction h with
  | query => exact .query
  | hop _ hh ih => exact Trail.seen_hop ih hh

/-- A struct that embeds a pointer to itself: the third type of the only path is the last one. -/
theorem limit_exact_chain : Visible chainStore.graph (.static chain) ∧
    (∃ u, methods chainStore.graph 2 (.static chain) = .error (.traversalLimit 2 u)) ∧
    ¬Exceeded chainStore.graph 3 (.static chain) ∧
    methods chainStore.graph 100 (.static chain) =
      .ok [⟨⟨"Len", ⟨[], [], false⟩, false⟩, 0⟩] := by
  have hvisible : Visible chainStore.graph (.static chain) := by
    refine ⟨fun t ht => ?_, fun t e ht hv => ?_⟩
    · rcases seen_chain ht.seen with rfl | rfl | rfl
      · exact ⟨_, view_chain⟩
      · exact ⟨_, view_chainBody⟩
      · exact ⟨_, view_chainPointer⟩
    · rcases seen_chain ht.seen with rfl | rfl | rfl
      · cases view_chain.symm.trans hv
      · cases view_chainBody.symm.trans hv
      · cases view_chainPointer.symm.trans hv
        exact ⟨false, rfl⟩
  have hlong : Exceeded chainStore.graph 2 (.static chain) := by
    have hstart : Trail chainStore.graph (.static chain) [] _ := .start view_chain
    have hbody := hstart.hop (.underlying view_chain) view_chainBody
    have hhop : Hop chainStore.graph (.static chainBody) 0 (.static chainPointer) :=
      (mem_hops view_chainBody rfl).1 (List.mem_singleton_self _)
    refine ⟨_, _, hbody.hop hhop view_chainPointer, ?_, Nat.lt_succ_self 2⟩
    refine simple_cons.2 ⟨?_, simple_cons.2 ⟨?_, List.pairwise_singleton _ _⟩⟩
    · simp [Path.visits, Store.graph, stepOf, same_chain_chainPointer,
        same_chainBody_chainPointer]
    · simp [Path.visits, Store.graph, stepOf, same_chain_chainBody]
  refine ⟨hvisible, (((limit_exact _ 2 _).1 hvisible).1).2 hlong, ?_, ?_⟩
  · exact (((limit_exact _ 3 _).1 hvisible).2).1 ⟨_, methods_chain⟩
  · exact ((limit_exact _ 3 _).2 100 (by decide)).1 _ methods_chain

end TypeIdentity.Promotion
