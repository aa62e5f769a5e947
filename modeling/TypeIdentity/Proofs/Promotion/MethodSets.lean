import TypeIdentity.HostType
import TypeIdentity.Proofs.Promotion.Shortcuts
import TypeIdentity.Proofs.Promotion.Surveys

/-! # Method sets by paths

A name is in the method set of a type exactly when no struct on an embedding path has a field of
that name, one candidate is shallower than all others, and that one does not need a pointer that is
not on its path.
-/
namespace TypeIdentity.Promotion
variable {α : Type} {g : TypeGraph α} {query : α}

/-! ## Simple paths -/

theorem Onward.hop {choices choices' : List Nat} {path path' : Path α} {t u : α} {s : Step α}
    {v w : View α} {i : Nat} (h : Onward g choices path t choices' (s :: path') v)
    (hh : Hop g s.type i u) (hn : Path.visits g (s :: path') u = false) (hw : g.view u = .ok w) :
    Onward g choices path t (i :: choices') (stepOf u w :: s :: path') w := by
  generalize hp : s :: path' = p at h
  induction h with
  | here hn' hv =>
    obtain ⟨rfl, rfl⟩ := List.cons.inj hp
    exact .there hn' hv hh (.here hn hw)
  | there hn' hv hh' _ ih => exact .there hn' hv hh' (ih hp)

theorem onward_of_trail {choices : List Nat} {path : Path α} {s : Step α} {v : View α}
    (h : Trail g query choices (s :: path)) (hs : Simple g (s :: path))
    (hv : g.view s.type = .ok v) : Onward g [] [] query choices (s :: path) v := by
  generalize hp : s :: path = p at h
  induction h generalizing s path v with
  | start hv' =>
    obtain ⟨rfl, rfl⟩ := List.cons.inj hp
    obtain rfl := Except.ok.inj (hv.symm.trans hv')
    exact .here rfl hv
  | @hop _ p r _ t w h hh hw ih =>
    obtain ⟨rfl, rfl⟩ := List.cons.inj hp
    obtain rfl := Except.ok.inj (hv.symm.trans hw)
    obtain ⟨hn, hs⟩ := simple_cons.1 hs
    obtain ⟨u, hu, -⟩ := h.view
    exact (ih hs hu rfl).hop hh hn hv

theorem trail_of_onward {choices choices' : List Nat} {path path' : Path α} {t : α} {v : View α}
    (h : Onward g choices path t choices' path' v)
    (ht : ∀ w, g.view t = .ok w → Trail g query choices (stepOf t w :: path)) (hs : Simple g path) :
    ∃ s p, path' = s :: p ∧ Trail g query choices' (s :: p) ∧ Simple g (s :: p) ∧
      g.view s.type = .ok v := by
  induction h with
  | here hn hv => exact ⟨_, _, rfl, ht _ hv, simple_cons.2 ⟨hn, hs⟩, hv⟩
  | there hn hv hh _ ih =>
    exact ih (fun w hw => (ht _ hv).hop hh hw) (simple_cons.2 ⟨hn, hs⟩)

theorem onward_iff_trail {choices : List Nat} {path : Path α} {v : View α} :
    Onward g [] [] query choices path v ↔ ∃ s p, path = s :: p ∧ Trail g query choices (s :: p) ∧
      Simple g (s :: p) ∧ g.view s.type = .ok v := by
  constructor
  · intro h
    exact trail_of_onward h (fun w hw => .start hw) List.Pairwise.nil
  · rintro ⟨s, p, rfl, ht, hs, hv⟩
    exact onward_of_trail ht hs hv

/-! ## Depths -/

theorem Trail.start_or_hop {choices : List Nat} {path : Path α} (h : Trail g query choices path) :
    ∃ v, g.view query = .ok v ∧ stepOf query v ∈ path ∧ (path = [stepOf query v] ∨
      ∃ i t w, Hop g query i t ∧ g.view t = .ok w ∧ stepOf t w ∈ path) := by
  induction h with
  | start hv => exact ⟨_, hv, List.mem_singleton_self _, .inl rfl⟩
  | hop h hh hv ih =>
    obtain ⟨v, hq, hm, hp | ⟨i, t, w, hi, hw, ht⟩⟩ := ih
    · obtain ⟨rfl, rfl⟩ := List.cons.inj hp
      exact ⟨v, hq, List.mem_cons_of_mem _ hm, .inr ⟨_, _, _, hh, hv, List.mem_cons_self ..⟩⟩
    · exact ⟨v, hq, List.mem_cons_of_mem _ hm, .inr ⟨i, t, w, hi, hw, List.mem_cons_of_mem _ ht⟩⟩

theorem crossings_pos {path : Path α} {s : Step α} (h : s ∈ path) (hs : s.isNamed = true) :
    1 ≤ path.crossings :=
  List.countP_pos_iff.2 ⟨s, h, hs⟩

/-- The named types at the beginning are on every path to a type that offers methods. -/
theorem ownNamed_le {choices : List Nat} {path : Path α} {s : Step α} {v : View α}
    (h : Trail g query choices (s :: path)) (hv : g.view s.type = .ok v) (ho : v.offered ≠ []) :
    ownNamed g query ≤ Path.crossings (s :: path) := by
  obtain ⟨w, hq, hm, hp⟩ := h.start_or_hop
  unfold ownNamed
  rw [hq]
  rcases w with (_ | _ | _ | _ | _ | _ | _ | _ | e) | n
  case shape.pointer =>
    rcases hp with hp | ⟨i, t, w, hh, hw, ht⟩
    · obtain ⟨rfl, rfl⟩ := List.cons.inj hp
      obtain rfl := Except.ok.inj (hv.symm.trans hq)
      exact absurd rfl ho
    · have ht' : t = e := by
        cases hh with
        | underlying hv' => cases hq.symm.trans hv'
        | embedded hv' _ _ => cases hq.symm.trans hv'
        | pointee hv' _ _ _ =>
          cases hq.symm.trans hv'
          rfl
      subst ht'
      cases w with
      | named n =>
        simp only [hw]
        exact crossings_pos ht rfl
      | shape z =>
        simp only [hw]
        exact Nat.zero_le _
  case named => exact crossings_pos hm rfl
  all_goals exact Nat.zero_le _

/-! ## Candidates -/

section Candidates
variable {key : α → α} {rank : α → Nat}

theorem mem_sightingsAt {base : Nat} {choices : List Nat} {path : Path α} {v : View α}
    {sighting : Sighting α} : sighting ∈ sightingsAt base choices path v ↔
      ∃ (i : Nat) (m : DeclaredMethod α), v.offered[i]? = some m ∧ isExported m.name = true ∧
        sighting = ⟨(choices, i), ⟨m, path.crossings - base, path.throughPointer⟩⟩ := by
  constructor
  · intro h
    obtain ⟨⟨m, i⟩, hm, rfl⟩ := List.mem_map.1 h
    obtain ⟨hm, he⟩ := List.mem_filter.1 hm
    exact ⟨i, m, List.mem_zipIdx_iff_getElem?.1 hm, he, rfl⟩
  · rintro ⟨i, m, hm, he, rfl⟩
    refine List.mem_map.2 ⟨(m, i), List.mem_filter.2 ⟨?_, he⟩, rfl⟩
    exact List.mem_zipIdx_iff_getElem?.2 hm

theorem offers_of_sighted {found : Survey α}
    (hf : found.Exact g (ownNamed g query) [] [] query) {sighting : Sighting α}
    (h : sighting ∈ found.sightings) : Offers g query sighting.site sighting.candidate := by
  obtain ⟨choices, path, v, ho, hs⟩ := (hf.sightings sighting).1 h
  obtain ⟨s, p, rfl, ht, -, hv⟩ := onward_iff_trail.1 ho
  obtain ⟨i, m, hm, he, rfl⟩ := mem_sightingsAt.1 hs
  exact .intro ht hv hm he

/-- What is offered is sighted, or a method of the same name is sighted less deep. -/
theorem sighted_of_offers (hc : Coherent g query key rank) {found : Survey α}
    (hf : found.Exact g (ownNamed g query) [] [] query) {site : List Nat × Nat} {c : Candidate α}
    (h : Offers g query site c) : ⟨site, c⟩ ∈ found.sightings ∨ ∃ sighting ∈ found.sightings,
      sighting.candidate.method.name = c.method.name ∧ sighting.candidate.depth < c.depth := by
  obtain @⟨choices, path, s, v, i, m, ht, hv, hm, he⟩ := h
  rcases simple_or_exists hc ht with hs | ⟨choices', s', path', ht', hs', hk, hlt⟩
  · refine .inl ((hf.sightings _).2 ⟨choices, s :: path, v, onward_of_trail ht hs hv, ?_⟩)
    exact mem_sightingsAt.2 ⟨i, m, hm, he, rfl⟩
  · right
    obtain ⟨w, hw, hvw⟩ := hc.view ht.seen ht'.seen hk hv
    have hoffered := congrArg (·[i]?) (View.offered_of_map_eq hvw)
    simp only [List.getElem?_map, hm] at hoffered
    obtain ⟨m', hm', hmap⟩ := Option.map_eq_some_iff.1 hoffered
    have hname : m'.name = m.name := (DeclaredMethod.mk.inj hmap).1
    have hne : w.offered ≠ [] := by
      intro he
      rw [he] at hm'
      cases hm'
    have hown := ownNamed_le ht' hw hne
    refine ⟨⟨(choices', i), ⟨m', Path.crossings (s' :: path') - ownNamed g query,
      Path.throughPointer (s' :: path')⟩⟩, (hf.sightings _).2 ⟨choices', s' :: path', w,
        onward_of_trail ht' hs' hw, mem_sightingsAt.2 ⟨i, m', hm', hname ▸ he, rfl⟩⟩, hname, ?_⟩
    change Path.crossings (s' :: path') - _ < Path.crossings (s :: path) - _
    omega

theorem mem_fields_iff (hc : Coherent g query key rank) {found : Survey α} {base : Nat}
    (hf : found.Exact g base [] [] query) (name : String) : name ∈ found.fields ↔
      ∃ choices s path v, Trail g query choices (s :: path) ∧ g.view s.type = .ok v ∧
        name ∈ v.fieldNames := by
  rw [hf.fields]
  constructor
  · rintro ⟨choices, path, v, ho, hm⟩
    obtain ⟨s, p, rfl, ht, -, hv⟩ := onward_iff_trail.1 ho
    exact ⟨choices, s, p, v, ht, hv, hm⟩
  · rintro ⟨choices, s, path, v, ht, hv, hm⟩
    rcases simple_or_exists hc ht with hs | ⟨choices', s', path', ht', hs', hk, -⟩
    · exact ⟨choices, _, v, onward_of_trail ht hs hv, hm⟩
    · obtain ⟨w, hw, hvw⟩ := hc.view ht.seen ht'.seen hk hv
      exact ⟨choices', _, w, onward_of_trail ht' hs' hw, View.fieldNames_of_map_eq hvw ▸ hm⟩

end Candidates

/-! ## Selection -/

/-- The only sighting with a property, when sites are met once. -/
theorem filter_eq_singleton {l : List (Sighting α)} (hn : (l.map (·.site)).Nodup)
    {keep : Sighting α → Bool} {a : Sighting α} : l.filter keep = [a] ↔
      a ∈ l ∧ keep a = true ∧ ∀ b ∈ l, keep b = true → b.site = a.site := by
  constructor
  · intro h
    have ha : a ∈ l.filter keep := h ▸ List.mem_singleton_self a
    obtain ⟨hl, hk⟩ := List.mem_filter.1 ha
    refine ⟨hl, hk, ?_⟩
    intro b hb hkb
    have hbf : b ∈ l.filter keep := List.mem_filter.2 ⟨hb, hkb⟩
    rw [h] at hbf
    rw [List.mem_singleton.1 hbf]
  · rintro ⟨hl, hk, hall⟩
    have hkept : ((l.filter keep).map (·.site)).Nodup :=
      hn.sublist (List.filter_sublist.map Sighting.site)
    have ha : a ∈ l.filter keep := List.mem_filter.2 ⟨hl, hk⟩
    have hsites : ∀ b ∈ l.filter keep, b.site = a.site := by
      intro b hb
      obtain ⟨hb, hkb⟩ := List.mem_filter.1 hb
      exact hall b hb hkb
    generalize l.filter keep = kept at hkept ha hsites ⊢
    cases kept with
    | nil => cases ha
    | cons x rest =>
      have hx := hsites x (List.mem_cons_self ..)
      obtain rfl : rest = [] := by
        apply List.eq_nil_iff_forall_not_mem.2
        intro y hy
        have hy' := hsites y (List.mem_cons_of_mem _ hy)
        apply (List.nodup_cons.1 hkept).1
        change x.site ∈ _
        rw [hx, ← hy']
        exact List.mem_map_of_mem hy
      rw [List.mem_singleton.1 ha]

theorem shallowest?_eq {candidates : List (Candidate α)} {c : Candidate α} :
    shallowest? candidates = some c ↔ (candidates.map (·.depth)).min? = some c.depth ∧
      candidates.filter (fun b => b.depth = c.depth) = [c] := by
  unfold shallowest?
  cases hmin : (candidates.map (·.depth)).min? with
  | none => simp
  | some depth =>
    dsimp only
    constructor
    · intro h
      split at h
      · next b hb =>
        obtain rfl := Option.some.inj h
        have hm : b ∈ candidates.filter fun b => b.depth = depth := hb ▸ List.mem_singleton_self b
        obtain rfl : b.depth = depth := of_decide_eq_true (List.mem_filter.1 hm).2
        exact ⟨rfl, hb⟩
      · cases h
    · rintro ⟨hd, hf⟩
      obtain rfl := Option.some.inj hd
      rw [hf]

theorem mem_of_shallowest? {candidates : List (Candidate α)} {c : Candidate α}
    (h : shallowest? candidates = some c) : c ∈ candidates := by
  have hm : c ∈ candidates.filter fun b => b.depth = c.depth :=
    (shallowest?_eq.1 h).2 ▸ List.mem_singleton_self c
  exact (List.mem_filter.1 hm).1

/-- The shallowest candidate is one that all others are deeper than. -/
theorem shallowest?_sightings {l : List (Sighting α)} (hn : (l.map (·.site)).Nodup)
    {c : Candidate α} : shallowest? (l.map (·.candidate)) = some c ↔ ∃ a ∈ l, a.candidate = c ∧
      ∀ b ∈ l, c.depth ≤ b.candidate.depth ∧ (b.candidate.depth = c.depth → b.site = a.site) := by
  rw [shallowest?_eq, List.map_map, List.min?_eq_some_iff, List.filter_map,
    List.map_eq_singleton_iff]
  constructor
  · rintro ⟨⟨-, hmin⟩, a, ha, rfl⟩
    obtain ⟨hl, -, hall⟩ := (filter_eq_singleton hn).1 ha
    refine ⟨a, hl, rfl, fun b hb => ⟨hmin _ (List.mem_map_of_mem hb), fun hd => ?_⟩⟩
    exact hall b hb (decide_eq_true hd)
  · rintro ⟨a, ha, rfl, hall⟩
    refine ⟨⟨List.mem_map_of_mem ha, fun depth hd => ?_⟩, a, ?_, rfl⟩
    · obtain ⟨b, hb, rfl⟩ := List.mem_map.1 hd
      exact (hall b hb).1
    · refine (filter_eq_singleton hn).2 ⟨ha, decide_eq_true rfl, fun b hb hk => ?_⟩
      exact (hall b hb).2 (of_decide_eq_true hk)

theorem promoted?_eq_some {found : Found α} {name : String} {p : Promoted α} :
    found.promoted? name = some p ↔ name ∉ found.fields ∧ ∃ c,
      shallowest? (found.candidates.filter fun c => c.method.name = name) = some c ∧
        (c.method.pointerReceiver = true → c.throughPointer = true) ∧ p = ⟨c.method, c.depth⟩ := by
  unfold Found.promoted?
  by_cases hf : name ∈ found.fields
  · simp [hf]
  · rw [if_neg hf]
    cases hs : shallowest? (found.candidates.filter fun c => c.method.name = name) with
    | none => simp
    | some c =>
      constructor
      · intro h
        cases hneeds : c.method.pointerReceiver && !c.throughPointer with
        | true => simp [hneeds] at h
        | false =>
          simp only [hneeds, Bool.false_eq_true, if_false] at h
          refine ⟨hf, c, rfl, fun hp => ?_, (Option.some.inj h).symm⟩
          simpa [hp] using hneeds
      · rintro ⟨-, d, hd, hp, rfl⟩
        obtain rfl := Option.some.inj hd
        have hneeds : (c.method.pointerReceiver && !c.throughPointer) = false := by
          cases hr : c.method.pointerReceiver with
          | false => rfl
          | true => simp [hp hr]
        simp only [hneeds, Bool.false_eq_true, if_false]

theorem mem_promoted_iff {found : Found α} {p : Promoted α} :
    p ∈ found.promoted ↔ found.promoted? p.method.name = some p := by
  have hname : ∀ {n : String}, found.promoted? n = some p → p.method.name = n ∧
      n ∈ found.candidates.map (·.method.name) := by
    intro n hp
    obtain ⟨-, c, hc, -, rfl⟩ := promoted?_eq_some.1 hp
    obtain ⟨hm, hn⟩ := List.mem_filter.1 (mem_of_shallowest? hc)
    obtain rfl := of_decide_eq_true hn
    exact ⟨rfl, List.mem_map_of_mem hm⟩
  constructor
  · intro hp
    obtain ⟨n, -, hn⟩ := List.mem_filterMap.1 hp
    rwa [(hname hn).1]
  · intro hp
    refine List.mem_filterMap.2 ⟨p.method.name, ?_, hp⟩
    rw [List.mem_mergeSort, List.mem_eraseDups]
    exact (hname hp).2

/-! ## Method sets -/

/-- One candidate of a name that is shallower than all others of the name. -/
structure Shallowest (g : TypeGraph α) (query : α) (site : List Nat × Nat) (c : Candidate α) :
    Prop where
  offers : Offers g query site c
  depth_le : ∀ site' c', Offers g query site' c' → c'.method.name = c.method.name →
    c.depth ≤ c'.depth
  site_eq : ∀ site' c', Offers g query site' c' → c'.method.name = c.method.name →
    c'.depth = c.depth → site' = site

section MethodSets
variable {key : α → α} {rank : α → Nat}

/-- Simple paths suffice to tell which candidate is shallower than all others. -/
theorem shallowest?_eq_some_iff (hc : Coherent g query key rank) {found : Survey α}
    (hf : found.Exact g (ownNamed g query) [] [] query) {c : Candidate α} :
    shallowest? ((found.sightings.map (·.candidate)).filter
      fun b => b.method.name = c.method.name) = some c ↔ ∃ site, Shallowest g query site c := by
  have hnodup : ((found.sightings.filter fun b => b.candidate.method.name = c.method.name).map
      (·.site)).Nodup := hf.nodup.sublist (List.filter_sublist.map _)
  rw [List.filter_map]
  refine (shallowest?_sightings hnodup).trans ⟨?_, ?_⟩
  · rintro ⟨a, ha, rfl, hall⟩
    obtain ⟨hl, -⟩ := List.mem_filter.1 ha
    have hsighted : ∀ b ∈ found.sightings, b.candidate.method.name = a.candidate.method.name →
        a.candidate.depth ≤ b.candidate.depth ∧
          (b.candidate.depth = a.candidate.depth → b.site = a.site) := by
      intro b hb hn
      exact hall b (List.mem_filter.2 ⟨hb, decide_eq_true hn⟩)
    refine ⟨a.site, offers_of_sighted hf hl, fun site' c' ho hn => ?_, fun site' c' ho hn hd => ?_⟩
    · rcases sighted_of_offers hc hf ho with h | ⟨b, hb, hbn, hlt⟩
      · exact (hsighted _ h hn).1
      · exact Nat.le_trans (hsighted b hb (hbn.trans hn)).1 (Nat.le_of_lt hlt)
    · rcases sighted_of_offers hc hf ho with h | ⟨b, hb, hbn, hlt⟩
      · exact (hsighted _ h hn).2 hd
      · have hle := (hsighted b hb (hbn.trans hn)).1
        omega
  · rintro ⟨site, ho, hle, hsite⟩
    have hl : ⟨site, c⟩ ∈ found.sightings := by
      rcases sighted_of_offers hc hf ho with h | ⟨b, hb, hbn, hlt⟩
      · exact h
      · have hle := hle _ _ (offers_of_sighted hf hb) hbn
        omega
    refine ⟨⟨site, c⟩, List.mem_filter.2 ⟨hl, decide_eq_true rfl⟩, rfl, ?_⟩
    intro b hb
    obtain ⟨hb, hn⟩ := List.mem_filter.1 hb
    have hob := offers_of_sighted hf hb
    exact ⟨hle _ _ hob (of_decide_eq_true hn), hsite _ _ hob (of_decide_eq_true hn)⟩

/-- A method is promoted exactly when no struct on a path has a field of its name and it is, with
its depth, the candidate of its name that is shallower than all others and has the pointer that it
needs. -/
theorem mem_methods (hc : Coherent g query key rank) {limit : Nat} {result : List (Promoted α)}
    (h : methods g limit query = .ok result) (p : Promoted α) : p ∈ result ↔
      (∀ choices s path v, Trail g query choices (s :: path) → g.view s.type = .ok v →
        p.method.name ∉ v.fieldNames) ∧
      ∃ site c, Shallowest g query site c ∧
        (c.method.pointerReceiver = true → c.throughPointer = true) ∧ p = ⟨c.method, c.depth⟩ := by
  obtain ⟨base, found, hbase, hfound, rfl⟩ := methods_ok h
  obtain rfl := ownNamed_eq hbase
  have hf := exact_of_explore hfound
  rw [mem_promoted_iff, promoted?_eq_some, mem_fields_iff hc hf]
  constructor
  · rintro ⟨hfields, c, hs, hp, rfl⟩
    obtain ⟨site, hs⟩ := (shallowest?_eq_some_iff hc hf).1 hs
    exact ⟨fun choices s path v ht hv hm => hfields ⟨choices, s, path, v, ht, hv, hm⟩,
      site, c, hs, hp, rfl⟩
  · rintro ⟨hfields, site, c, hs, hp, rfl⟩
    refine ⟨?_, c, (shallowest?_eq_some_iff hc hf).2 ⟨site, hs⟩, hp, rfl⟩
    rintro ⟨choices, s, path, v, ht, hv, hm⟩
    exact hfields choices s path v ht hv hm

end MethodSets

end TypeIdentity.Promotion
