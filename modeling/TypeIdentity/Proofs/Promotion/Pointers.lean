import TypeIdentity.Proofs.Promotion.Selection
import TypeIdentity.Proofs.Promotion.Twins

/-! # Method sets of pointers

The exploration of a pointer is that of its pointee with one more type at the bottom of the path.
That type keeps the exploration from coming back to the pointer, which would find nothing anyway,
and makes every candidate one that goes through a pointer.  So what is promoted to a type is
promoted to the pointer to it, and the methods that are promoted only to the pointer need one.
-/
namespace TypeIdentity

/-- The pointer to a type. -/
def HostType.pointer : HostType → HostType
  | static t => static (.shape (.pointer t))
  | runtime t => runtime (.shape (.pointer t))

namespace Promotion
variable {α : Type} {g : TypeGraph α} {limit limit' base budget budget' : Nat}
  {choices choices' : List Nat} {path : Path α} {p t u : α} {v : View α} {a b : Survey α}

/-! ## Types that point to another one -/

/-- A type is the pointer to another one, up to types that are the same. -/
structure PointsTo (g : TypeGraph α) (p t : α) : Prop where
  view : g.view p = .ok (.shape (.pointer t))
  same : ∀ u, g.same p u = true → ∃ e, g.view u = .ok (.shape (.pointer e)) ∧ g.same t e = true

theorem Hop.pointee_eq {i : Nat} {e e' : α} (h : Hop g u i e')
    (hv : g.view u = .ok (.shape (.pointer e))) : e' = e := by
  cases h with
  | underlying hv' => cases hv.symm.trans hv'
  | embedded hv' _ _ => cases hv.symm.trans hv'
  | pointee hv' _ _ _ =>
    cases hv.symm.trans hv'
    rfl

/-- Nothing is found behind a pointer to a type on the path. -/
theorem explore_back {e : α} (hn : path.visits g u = false)
    (hv : g.view u = .ok (.shape (.pointer e))) (hback : path.visits g e = true)
    (h : explore g limit base budget choices path u = .ok a) : a = ⟨[], []⟩ := by
  obtain ⟨hvisit, -⟩ | ⟨b, w, l, below, -, hw, rfl, hl, hbelow, rfl⟩ := explore_ok h
  · rw [hn] at hvisit
    cases hvisit
  · obtain rfl := Except.ok.inj (hv.symm.trans hw)
    have hempty (c : Survey α) (hc : c ∈ below) : c = ⟨[], []⟩ := by
      have hin : c ∈ below.flatMap fun c => [c] := List.mem_flatMap.2 ⟨c, hc, by simp⟩
      obtain ⟨x, hx, c', hfound, hc'⟩ := (mem_flatMap_of_mapM hbelow).1 hin
      obtain rfl := List.mem_singleton.1 hc'
      have hvisit : Path.visits g (stepOf u (.shape (.pointer e)) :: path) x.2 = true := by
        rw [((mem_hops hv hl).1 hx).pointee_eq hv, Path.visits, List.any_cons]
        exact Bool.or_eq_true_iff.2 (.inr hback)
      exact (Except.ok.inj ((explore_visited _ hvisit).symm.trans hfound)).symm
    have hfields : below.flatMap (·.fields) = [] :=
      List.flatMap_eq_nil_iff.2 fun c hc => hempty c hc ▸ rfl
    have hsightings : below.flatMap (·.sightings) = [] :=
      List.flatMap_eq_nil_iff.2 fun c hc => hempty c hc ▸ rfl
    rw [hfields, hsightings]
    rfl

/-! ## Explorations behind a pointer -/

/-- The candidate as it is met behind a pointer. -/
def Candidate.behind (c : Candidate α) : Candidate α := { c with throughPointer := true }

/-- The second exploration finds what the first one does, behind a pointer. -/
structure Behind (a b : Survey α) : Prop where
  fields : b.fields = a.fields
  candidates : b.sightings.map (·.candidate) = (a.sightings.map (·.candidate)).map (·.behind)

theorem flatMap_behind {as bs : List (Survey α)} (h : List.Forall₂ Behind as bs) :
    bs.flatMap (·.fields) = as.flatMap (·.fields) ∧
      (bs.flatMap (·.sightings)).map (·.candidate) =
        ((as.flatMap (·.sightings)).map (·.candidate)).map (·.behind) := by
  induction h with
  | nil => exact ⟨rfl, rfl⟩
  | cons hab _ ih =>
    obtain ⟨hfields, hcandidates⟩ := ih
    constructor
    · rw [List.flatMap_cons, List.flatMap_cons, hab.fields, hfields]
    · simp only [List.flatMap_cons, List.map_append, hab.candidates, hcandidates]

theorem forall₂_of_mapM {β γ : Type} {R : γ → γ → Prop} {f f' : β → Except Error γ} {l : List β}
    {cs cs' : List γ} (h : l.mapM f = .ok cs) (h' : l.mapM f' = .ok cs')
    (hr : ∀ b ∈ l, ∀ c c', f b = .ok c → f' b = .ok c' → R c c') : List.Forall₂ R cs cs' := by
  induction l generalizing cs cs' with
  | nil =>
    obtain rfl := Except.ok.inj h
    obtain rfl := Except.ok.inj h'
    exact .nil
  | cons b l ih =>
    obtain ⟨c, cs, hb, hl, rfl⟩ := mapM_cons_ok h
    obtain ⟨c', cs', hb', hl', rfl⟩ := mapM_cons_ok h'
    exact .cons (hr b (List.mem_cons_self ..) c c' hb hb')
      (ih hl hl' fun d hd => hr d (List.mem_cons_of_mem _ hd))

/-- With the pointer at the bottom of the path, explorations from the pointee on find the same. -/
theorem behind_of_explore (hp : PointsTo g p t) (hv : g.view t = .ok v) (hn : v.isPointer = false)
    (ht : t ∈ u :: path.map (·.type))
    (ha : explore g limit base budget choices path u = .ok a)
    (hb : explore g limit' base budget' choices' (path ++ [stepOf p (.shape (.pointer t))]) u =
      .ok b) : Behind a b := by
  induction budget using Nat.strongRecOn generalizing budget' choices choices' path u a b with
  | ind budget ih =>
    obtain ⟨hvisit, rfl⟩ | ⟨m, w, l, below, hnew, hw, rfl, hl, hbelow, rfl⟩ := explore_ok ha
    · have hvisit' : Path.visits g (path ++ [stepOf p (.shape (.pointer t))]) u = true := by
        rw [Path.visits, List.any_append]
        exact Bool.or_eq_true_iff.2 (.inl hvisit)
      obtain rfl := Except.ok.inj ((explore_visited _ hvisit').symm.trans hb)
      exact ⟨rfl, rfl⟩
    · obtain ⟨hvisit', rfl⟩ | ⟨m', w', l', below', -, hw', rfl, hl', hbelow', rfl⟩ := explore_ok hb
      · -- only the pointer at the bottom can be the same as `u`
        rw [Path.visits, List.any_append, Bool.or_eq_true_iff] at hvisit'
        have hsame : g.same p u = true := by
          rcases hvisit' with hvisit | hlast
          · exact absurd hvisit (Bool.eq_false_iff.1 hnew)
          · simpa [stepOf] using hlast
        obtain ⟨e, he, hte⟩ := hp.same u hsame
        have hback : path.visits g e = true := by
          rcases List.mem_cons.1 ht with rfl | ht
          · obtain rfl := Except.ok.inj (hv.symm.trans he)
            cases hn
          · obtain ⟨s, hs, rfl⟩ := List.mem_map.1 ht
            exact List.any_eq_true.2 ⟨s, hs, hte⟩
        rw [explore_back hnew he hback ha]
        exact ⟨rfl, rfl⟩
      · obtain rfl := Except.ok.inj (hw.symm.trans hw')
        obtain rfl := Except.ok.inj (hl.symm.trans hl')
        have hall : List.Forall₂ Behind below below' := by
          refine forall₂_of_mapM hbelow hbelow' fun x _ c c' hc hc' => ?_
          have ht' : t ∈ x.2 :: (stepOf u w :: path).map (·.type) := List.mem_cons_of_mem _ ht
          exact ih m (Nat.lt_succ_self m) ht' hc hc'
        obtain ⟨hfields, hcandidates⟩ := flatMap_behind hall
        have hcrossings : Path.crossings
            (stepOf u w :: (path ++ [stepOf p (.shape (.pointer t))])) =
              Path.crossings (stepOf u w :: path) := by
          rw [← List.cons_append, crossings_append]
          rfl
        have hthrough : Path.throughPointer
            (stepOf u w :: (path ++ [stepOf p (.shape (.pointer t))])) = true := by
          simp [Path.throughPointer, stepOf, View.isPointer]
        refine ⟨congrArg (w.fieldNames ++ ·) hfields, ?_⟩
        rw [List.map_append, List.map_append, hcandidates, sightingsAt_candidates,
          sightingsAt_candidates, hcrossings, hthrough, List.map_append]
        simp only [List.map_map, Function.comp_def, Candidate.behind]

theorem hops_pointer {l : List (Nat × α)} (hv : g.view t = .ok v) (hn : v.isPointer = false)
    (hi : g.isInterface t ≠ .ok true) (hl : hops g (.shape (.pointer t)) = .ok l) :
    l = [(0, t)] := by
  cases hb : g.isInterface t with
  | error e => simp [hops, Walk.follows, hv, hn, hb, bind, Except.bind] at hl
  | ok b =>
    cases b with
    | true => exact absurd hb hi
    | false =>
      simp [hops, Walk.follows, hv, hn, hb, bind, Except.bind, pure, Except.pure] at hl
      exact hl.symm

/-- The exploration of a pointer finds what that of its pointee does, behind a pointer. -/
theorem PointsTo.behind (hp : PointsTo g p t) (hv : g.view t = .ok v) (hn : v.isPointer = false)
    (hi : g.isInterface t ≠ .ok true) (ha : explore g limit base budget [] [] t = .ok a)
    (hb : explore g limit' base budget' [] [] p = .ok b) : Behind a b := by
  obtain ⟨hvisit, -⟩ | ⟨m, w, l, below, -, hw, rfl, hl, hbelow, rfl⟩ := explore_ok hb
  · cases hvisit
  · obtain rfl := Except.ok.inj (hp.view.symm.trans hw)
    obtain rfl := hops_pointer hv hn hi hl
    obtain ⟨c, cs, hc, hcs, rfl⟩ := mapM_cons_ok hbelow
    obtain rfl := Except.ok.inj hcs
    have hinside : Behind a c := behind_of_explore hp hv hn (List.mem_cons_self ..) ha hc
    refine ⟨?_, ?_⟩
    · simpa [View.fieldNames] using hinside.fields
    · simpa [sightingsAt, View.offered] using hinside.candidates

/-! ## Promotion behind a pointer -/

/-- A method that is promoted behind a pointer is promoted, unless it needs the pointer. -/
theorem promoted?_behind {fields : List String} {candidates : List (Candidate α)} {name : String}
    {m : Promoted α} : Found.promoted? ⟨fields, candidates.map (·.behind)⟩ name = some m ↔
      name ∉ fields ∧ ∃ c, shallowest? (candidates.filter fun c => c.method.name = name) = some c ∧
        m = ⟨c.method, c.depth⟩ := by
  have hfilter : (candidates.map (·.behind)).filter (fun c => decide (c.method.name = name)) =
      (candidates.filter fun c => decide (c.method.name = name)).map (·.behind) := by
    rw [List.filter_map]
    rfl
  rw [promoted?_eq_some]
  simp only [hfilter, shallowest?_map Candidate.behind fun _ => rfl, Option.map_eq_some_iff]
  refine and_congr_right fun _ => ⟨?_, ?_⟩
  · rintro ⟨_, ⟨c, hc, rfl⟩, -, rfl⟩
    exact ⟨c, hc, rfl⟩
  · rintro ⟨c, hc, rfl⟩
    exact ⟨_, ⟨c, hc, rfl⟩, fun _ => rfl, rfl⟩

/-- Promotion behind a pointer adds nothing but methods that need the pointer. -/
theorem mem_promoted_behind {fields : List String} {candidates : List (Candidate α)}
    {m : Promoted α} : (m ∈ Found.promoted ⟨fields, candidates⟩ →
        m ∈ Found.promoted ⟨fields, candidates.map (·.behind)⟩) ∧
      (m ∈ Found.promoted ⟨fields, candidates.map (·.behind)⟩ →
        m ∉ Found.promoted ⟨fields, candidates⟩ → m.method.pointerReceiver = true) := by
  simp only [mem_promoted_iff]
  rw [promoted?_behind, promoted?_eq_some]
  constructor
  · rintro ⟨hf, c, hc, -, hm⟩
    exact ⟨hf, c, hc, hm⟩
  · rintro ⟨hf, c, hc, rfl⟩ hno
    by_contra hvalue
    exact hno ⟨hf, c, hc, fun hneeds => absurd hneeds hvalue, rfl⟩

theorem view_of_methods {ms : List (Promoted α)} (h : methods g limit t = .ok ms) :
    ∃ v, g.view t = .ok v := by
  obtain ⟨base, found, hbase, -, -⟩ := methods_ok h
  cases hv : g.view t with
  | ok v => exact ⟨v, rfl⟩
  | error e => simp [ownDepth, hv, bind, Except.bind] at hbase

/-- What is promoted to a type is promoted to the pointer to it. -/
theorem PointsTo.methods {ms ms' : List (Promoted α)} (hp : PointsTo g p t) (hv : g.view t = .ok v)
    (hn : v.isPointer = false) (hi : g.isInterface t ≠ .ok true)
    (h : methods g limit t = .ok ms) (h' : methods g limit' p = .ok ms') :
    (∀ m ∈ ms, m ∈ ms') ∧ ∀ m ∈ ms', m ∉ ms → m.method.pointerReceiver = true := by
  obtain ⟨base, a, hbase, ha, rfl⟩ := methods_ok h
  obtain ⟨base', b, hbase', hb, rfl⟩ := methods_ok h'
  obtain rfl : base' = base := by
    rw [← ownNamed_eq hbase, ← ownNamed_eq hbase', ownNamed_pointer hp.view hv,
      ownNamed_of_view hv, ahead_of_not_pointer hn]
    rfl
  have hbehind := hp.behind hv hn hi ha hb
  rw [hbehind.fields, hbehind.candidates]
  exact ⟨fun m => mem_promoted_behind.1, fun m => mem_promoted_behind.2⟩

/-! ## Pointers to host types -/

section Host
variable {store : Store} {t u : HostType}

theorem view_pointer (store : Store) (t : HostType) :
    store.view t.pointer = .ok (.shape (.pointer t)) := by
  cases t <;> rfl

theorem eq_pointer_of_view {e : HostType} (h : store.view t = .ok (.shape (.pointer e))) :
    t = e.pointer := by
  cases t with
  | static t =>
    obtain ⟨z, rfl, hz⟩ := view_static_shape h
    cases z <;> cases hz
    rfl
  | runtime t =>
    obtain ⟨z, rfl, hz⟩ := view_runtime_shape h
    cases z <;> cases hz
    rfl

/-- Only pointers are the same as a pointer, and their pointees are the same then. -/
theorem same_pointer (h : t.pointer.same u = true) : ∃ e, u = e.pointer ∧ t.same e = true := by
  cases t with
  | static t =>
    cases u with
    | static u =>
      rw [HostType.pointer, HostType.same_static] at h
      cases u with
      | shape s =>
        rw [StaticType.same, Shape.agreeOn_eq StaticType.same] at h
        cases s <;> simp only [Shape.agree, Bool.false_eq_true] at h
        exact ⟨.static _, rfl, (HostType.same_static _ _).trans h⟩
      | _ => simp [StaticType.same] at h
    | runtime u => cases h
  | runtime t =>
    cases u with
    | static u => cases h
    | runtime u =>
      rw [HostType.pointer, HostType.same_runtime] at h
      cases u with
      | shape s =>
        rw [RuntimeType.same, Shape.agreeOn_eq RuntimeType.same] at h
        cases s <;> simp only [Shape.agree, Bool.false_eq_true] at h
        exact ⟨.runtime _, rfl, h⟩
      | named n => simp [RuntimeType.same] at h

theorem pointsTo_pointer (store : Store) (t : HostType) :
    PointsTo store.graph t.pointer t where
  view := view_pointer store t
  same u h := by
    obtain ⟨e, rfl, hs⟩ := same_pointer h
    exact ⟨e, view_pointer store e, hs⟩

/-- The method set of a pointer contains that of its pointee, and otherwise only methods that are
declared on pointers. -/
theorem subset_methods_pointer {limit limit' : Nat} {ms ms' : List (Promoted HostType)}
    (hpointer : ∀ e : HostType, t ≠ e.pointer) (hi : store.graph.isInterface t ≠ .ok true)
    (h : methods store.graph limit t = .ok ms)
    (h' : methods store.graph limit' t.pointer = .ok ms') :
    (∀ m ∈ ms, m ∈ ms') ∧ ∀ m ∈ ms', m ∉ ms → m.method.pointerReceiver = true := by
  obtain ⟨v, hv⟩ := view_of_methods h
  have hn : v.isPointer = false := by
    rcases v with (_ | _ | _ | _ | _ | _ | _ | _ | e) | _
    case shape.pointer => exact absurd (eq_pointer_of_view hv) (hpointer e)
    all_goals rfl
  exact (pointsTo_pointer store t).methods hv hn hi h h'

end Host

end Promotion
end TypeIdentity
