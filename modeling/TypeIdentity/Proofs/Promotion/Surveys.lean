import Mathlib.Data.List.Nodup
import TypeIdentity.Proofs.Promotion.Exploration

/-! # What explorations find

An exploration that succeeds finds what stands at the ends of the simple paths going on from where
it begins, and it meets every candidate once.
-/
namespace TypeIdentity.Promotion
variable {α : Type} {g : TypeGraph α}

/-- Going on from the end of a path without meeting a type again: the choices and the types of the
longer path, and the view of its last type. -/
inductive Onward (g : TypeGraph α) :
    List Nat → Path α → α → List Nat → Path α → View α → Prop
  | here {choices : List Nat} {path : Path α} {t : α} {v : View α} (hn : path.visits g t = false)
      (hv : g.view t = .ok v) : Onward g choices path t choices (stepOf t v :: path) v
  | there {choices choices' : List Nat} {path path' : Path α} {t u : α} {i : Nat} {v w : View α}
      (hn : path.visits g t = false) (hv : g.view t = .ok v) (hh : Hop g t i u)
      (h : Onward g (i :: choices) (stepOf t v :: path) u choices' path' w) :
      Onward g choices path t choices' path' w

theorem Onward.suffix {choices choices' : List Nat} {path path' : Path α} {t : α} {v : View α}
    (h : Onward g choices path t choices' path' v) : choices <:+ choices' := by
  induction h with
  | here => exact List.suffix_refl _
  | there _ _ _ _ ih => exact (List.suffix_cons _ _).trans ih

/-! ## Steps -/

theorem follows_iff {e : α} {b : Bool} (h : Walk.follows g e = .ok b) : b = true ↔
    ∃ v, g.view e = .ok v ∧ v.isPointer = false ∧ g.isInterface e = .ok false := by
  unfold Walk.follows at h
  cases hv : g.view e with
  | error x => simp [hv, bind, Except.bind] at h
  | ok v =>
    cases hp : v.isPointer with
    | true =>
      simp [hv, hp, bind, Except.bind, pure, Except.pure] at h
      subst h
      simp [hp]
    | false =>
      cases hi : g.isInterface e with
      | error x => simp [hv, hp, hi, bind, Except.bind] at h
      | ok c =>
        simp [hv, hp, hi, bind, Except.bind, pure, Except.pure] at h
        subst h
        simp [hp]

theorem mem_hops {t u : α} {v : View α} {l : List (Nat × α)} {i : Nat} (hv : g.view t = .ok v)
    (hl : hops g v = .ok l) : (i, u) ∈ l ↔ Hop g t i u := by
  constructor
  · intro hm
    rcases v with (_ | _ | _ | _ | _ | _ | fs | _ | e) | n
    case shape.struct =>
      obtain rfl := Except.ok.inj hl
      obtain ⟨⟨f, j⟩, hf, he⟩ := List.mem_map.1 hm
      obtain ⟨hf, hemb⟩ := List.mem_filter.1 hf
      obtain ⟨rfl, rfl⟩ := Prod.mk.inj he
      exact .embedded hv (List.mem_zipIdx_iff_getElem?.1 hf) hemb
    case shape.pointer =>
      cases hf : Walk.follows g e with
      | error => simp [hops, hf, bind, Except.bind] at hl
      | ok b =>
        cases b with
        | false =>
          simp [hops, hf, bind, Except.bind, pure, Except.pure] at hl
          subst hl
          cases hm
        | true =>
          simp [hops, hf, bind, Except.bind, pure, Except.pure] at hl
          subst hl
          obtain ⟨rfl, rfl⟩ := Prod.mk.inj (List.mem_singleton.1 hm)
          obtain ⟨w, hw, hp, hi⟩ := (follows_iff hf).1 rfl
          exact .pointee hv hw hp hi
    case named =>
      obtain rfl := Except.ok.inj hl
      obtain ⟨rfl, rfl⟩ := Prod.mk.inj (List.mem_singleton.1 hm)
      exact .underlying hv
    all_goals
      obtain rfl := Except.ok.inj hl
      cases hm
  · intro hh
    cases hh with
    | underlying hv' =>
      obtain rfl := Except.ok.inj (hv.symm.trans hv')
      obtain rfl := Except.ok.inj hl
      exact List.mem_singleton_self _
    | @embedded fs _ f hv' hf he =>
      obtain rfl := Except.ok.inj (hv.symm.trans hv')
      obtain rfl := Except.ok.inj hl
      refine List.mem_map.2 ⟨(f, i), List.mem_filter.2 ⟨?_, he⟩, rfl⟩
      exact List.mem_zipIdx_iff_getElem?.2 hf
    | @pointee _ w hv' hw hp hi =>
      obtain rfl := Except.ok.inj (hv.symm.trans hv')
      cases hf : Walk.follows g u with
      | error => simp [hops, hf, bind, Except.bind] at hl
      | ok b =>
        obtain rfl := (follows_iff hf).2 ⟨w, hw, hp, hi⟩
        simp [hops, hf, bind, Except.bind, pure, Except.pure] at hl
        subst hl
        exact List.mem_singleton_self _

theorem nodup_positions {β : Type} (keep : β × Nat → Bool) (l : List β) :
    ((l.zipIdx.filter keep).map Prod.snd).Nodup := by
  have hall : (l.zipIdx.map Prod.snd).Nodup := by
    rw [List.zipIdx_map_snd]
    exact List.nodup_range'
  exact hall.sublist (List.filter_sublist.map Prod.snd)

theorem nodup_hops {v : View α} {l : List (Nat × α)} (hl : hops g v = .ok l) :
    (l.map Prod.fst).Nodup := by
  rcases v with (_ | _ | _ | _ | _ | _ | fs | _ | e) | n
  case shape.struct =>
    obtain rfl := Except.ok.inj hl
    rw [List.map_map]
    exact nodup_positions _ fs
  case shape.pointer =>
    cases hf : Walk.follows g e with
    | error => simp [hops, hf, bind, Except.bind] at hl
    | ok b =>
      cases b <;> simp [hops, hf, bind, Except.bind, pure, Except.pure] at hl <;> subst hl <;> simp
  case named =>
    obtain rfl := Except.ok.inj hl
    simp
  all_goals
    obtain rfl := Except.ok.inj hl
    simp

/-! ## Surveys -/

/-- Every candidate and field name at the ends of the paths onward, every candidate once. -/
structure Survey.Exact (g : TypeGraph α) (base : Nat) (choices : List Nat) (path : Path α) (t : α)
    (found : Survey α) : Prop where
  fields : ∀ name, name ∈ found.fields ↔
    ∃ choices' path' v, Onward g choices path t choices' path' v ∧ name ∈ v.fieldNames
  sightings : ∀ sighting, sighting ∈ found.sightings ↔
    ∃ choices' path' v, Onward g choices path t choices' path' v ∧
      sighting ∈ sightingsAt base choices' path' v
  nodup : (found.sightings.map (·.site)).Nodup

theorem mapM_cons_ok {β γ : Type} {f : β → Except Error γ} {b : β} {l : List β} {below : List γ}
    (h : (b :: l).mapM f = .ok below) :
    ∃ c cs, f b = .ok c ∧ l.mapM f = .ok cs ∧ below = c :: cs := by
  rw [List.mapM_cons] at h
  cases hb : f b with
  | error e => simp [hb, bind, Except.bind] at h
  | ok c =>
    cases hl : l.mapM f with
    | error e => simp [hb, hl, bind, Except.bind] at h
    | ok cs =>
      simp [hb, hl, bind, Except.bind, pure, Except.pure] at h
      exact ⟨c, cs, rfl, rfl, h.symm⟩

theorem mem_flatMap_of_mapM {β γ δ : Type} {f : β → Except Error γ} {part : γ → List δ} {l : List β}
    {below : List γ} (h : l.mapM f = .ok below) {x : δ} :
    x ∈ below.flatMap part ↔ ∃ b ∈ l, ∃ c, f b = .ok c ∧ x ∈ part c := by
  induction l generalizing below with
  | nil =>
    obtain rfl := Except.ok.inj h
    simp
  | cons b l ih =>
    obtain ⟨c, cs, hb, hl, rfl⟩ := mapM_cons_ok h
    simp [hb, ih hl]

theorem exists_of_mapM {β γ : Type} {f : β → Except Error γ} {l : List β} {below : List γ}
    (h : l.mapM f = .ok below) {b : β} (hb : b ∈ l) : ∃ c, f b = .ok c := by
  induction l generalizing below with
  | nil => cases hb
  | cons b' l ih =>
    obtain ⟨c, cs, hb', hl, rfl⟩ := mapM_cons_ok h
    rcases List.mem_cons.1 hb with rfl | hb
    · exact ⟨c, hb'⟩
    · exact ih hl hb

theorem site_of_sightingsAt {base : Nat} {choices : List Nat} {path : Path α} {v : View α}
    {sighting : Sighting α} (h : sighting ∈ sightingsAt base choices path v) :
    sighting.site.1 = choices := by
  obtain ⟨m, -, rfl⟩ := List.mem_map.1 h
  rfl

theorem nodup_sightingsAt (base : Nat) (choices : List Nat) (path : Path α) (v : View α) :
    ((sightingsAt base choices path v).map (·.site)).Nodup := by
  have hinj : Function.Injective fun i : Nat => (choices, i) := fun i j h => (Prod.mk.inj h).2
  have hsites := (nodup_positions (fun m => isExported m.1.name) v.offered).map hinj
  rw [List.map_map] at hsites
  rw [sightingsAt, List.map_map]
  exact hsites

/-- Candidates met after different steps have different sites. -/
theorem nodup_below {f : Nat × α → Except Error (Survey α)} {l : List (Nat × α)}
    {below : List (Survey α)} {choices : List Nat} (h : l.mapM f = .ok below)
    (hl : (l.map Prod.fst).Nodup) (hn : ∀ x ∈ l, ∀ found, f x = .ok found →
      (found.sightings.map (·.site)).Nodup ∧
        ∀ sighting ∈ found.sightings, (x.1 :: choices) <:+ sighting.site.1) :
    ((below.flatMap (·.sightings)).map (·.site)).Nodup := by
  induction l generalizing below with
  | nil =>
    obtain rfl := Except.ok.inj h
    exact List.nodup_nil
  | cons x l ih =>
    obtain ⟨c, cs, hx, hrest, rfl⟩ := mapM_cons_ok h
    obtain ⟨hxl, hl⟩ := List.nodup_cons.1 hl
    obtain ⟨hc, hsuffix⟩ := hn x (List.mem_cons_self ..) c hx
    have hcs := ih hrest hl fun y hy => hn y (List.mem_cons_of_mem _ hy)
    rw [List.flatMap_cons, List.map_append]
    apply List.Nodup.append hc hcs
    intro site hs hs'
    obtain ⟨a, ha, rfl⟩ := List.mem_map.1 hs
    obtain ⟨b, hb, hab⟩ := List.mem_map.1 hs'
    obtain ⟨y, hy, d, hd, hbd⟩ := (mem_flatMap_of_mapM hrest).1 hb
    have hxa := hsuffix a ha
    have hyb := (hn y (List.mem_cons_of_mem _ hy) d hd).2 b hbd
    rw [hab] at hyb
    have heq : x.1 :: choices = y.1 :: choices :=
      (List.suffix_of_suffix_length_le hxa hyb (Nat.le_refl _)).eq_of_length rfl
    exact hxl ((List.cons.inj heq).1 ▸ List.mem_map_of_mem hy)

theorem Onward.new {choices choices' : List Nat} {path path' : Path α} {t : α} {v : View α}
    (h : Onward g choices path t choices' path' v) : path.visits g t = false := by
  cases h with
  | here hn _ => exact hn
  | there hn _ _ _ => exact hn

theorem exact_of_visited {base : Nat} {choices : List Nat} {path : Path α} {t : α}
    {found : Survey α} (hn : path.visits g t = true)
    (h : (.ok ⟨[], []⟩ : Except Error (Survey α)) = .ok found) :
    found.Exact g base choices path t := by
  obtain rfl := Except.ok.inj h
  have hnone : ∀ choices' path' v, ¬Onward g choices path t choices' path' v := by
    intro choices' path' v ho
    rw [ho.new] at hn
    cases hn
  exact ⟨by simp [hnone], by simp [hnone], List.nodup_nil⟩

/-- Where a path can go on to, from a type that is new to it. -/
theorem onward_iff (P : List Nat → Path α → View α → Prop) (choices : List Nat) {path : Path α}
    {t : α} {v : View α} {l : List (Nat × α)} (hn : path.visits g t = false)
    (hv : g.view t = .ok v) (hl : hops g v = .ok l) :
    (∃ choices' path' w, Onward g choices path t choices' path' w ∧ P choices' path' w) ↔
      P choices (stepOf t v :: path) v ∨ ∃ x ∈ l, ∃ choices' path' w,
        Onward g (x.1 :: choices) (stepOf t v :: path) x.2 choices' path' w ∧
          P choices' path' w := by
  constructor
  · rintro ⟨choices', path', w, ho, hp⟩
    cases ho with
    | here _ hv' =>
      obtain rfl := Except.ok.inj (hv.symm.trans hv')
      exact .inl hp
    | @there _ _ _ _ _ u i v' _ _ hv' hh ho =>
      obtain rfl := Except.ok.inj (hv.symm.trans hv')
      exact .inr ⟨(i, u), (mem_hops hv hl).2 hh, choices', path', w, ho, hp⟩
  · rintro (hp | ⟨x, hx, choices', path', w, ho, hp⟩)
    · exact ⟨_, _, _, .here hn hv, hp⟩
    · exact ⟨_, _, _, .there hn hv ((mem_hops hv hl).1 hx) ho, hp⟩

theorem mem_below_iff {δ : Type} {part : Survey α → List δ} {P : List Nat → Path α → View α → Prop}
    {y : δ} {choices : List Nat} {path : Path α} {l : List (Nat × α)}
    {f : Nat × α → Except Error (Survey α)} {below : List (Survey α)} (hb : l.mapM f = .ok below)
    (hpart : ∀ x ∈ l, ∀ found, f x = .ok found → (y ∈ part found ↔ ∃ choices' path' w,
      Onward g (x.1 :: choices) path x.2 choices' path' w ∧ P choices' path' w)) :
    y ∈ below.flatMap part ↔ ∃ x ∈ l, ∃ choices' path' w,
      Onward g (x.1 :: choices) path x.2 choices' path' w ∧ P choices' path' w := by
  rw [mem_flatMap_of_mapM hb]
  constructor
  · rintro ⟨x, hx, found, hf, hy⟩
    exact ⟨x, hx, (hpart x hx found hf).1 hy⟩
  · rintro ⟨x, hx, hy⟩
    obtain ⟨found, hf⟩ := exists_of_mapM hb hx
    exact ⟨x, hx, found, hf, (hpart x hx found hf).2 hy⟩

theorem exact_of_below {base : Nat} {choices : List Nat} {path : Path α} {t : α} {v : View α}
    {l : List (Nat × α)} {f : Nat × α → Except Error (Survey α)} {below : List (Survey α)}
    (hn : path.visits g t = false) (hv : g.view t = .ok v) (hl : hops g v = .ok l)
    (hb : l.mapM f = .ok below) (ih : ∀ x ∈ l, ∀ found, f x = .ok found →
      found.Exact g base (x.1 :: choices) (stepOf t v :: path) x.2) :
    Survey.Exact g base choices path t ⟨v.fieldNames ++ below.flatMap (·.fields),
      below.flatMap (·.sightings) ++ sightingsAt base choices (stepOf t v :: path) v⟩ := by
  have hsuffix : ∀ x ∈ l, ∀ found, f x = .ok found →
      ∀ sighting ∈ found.sightings, (x.1 :: choices) <:+ sighting.site.1 := by
    intro x hx found hf sighting hs
    obtain ⟨choices', path', w, ho, hw⟩ := ((ih x hx found hf).sightings sighting).1 hs
    rw [site_of_sightingsAt hw]
    exact ho.suffix
  refine ⟨fun name => ?_, fun sighting => ?_, ?_⟩
  · let P (_ : List Nat) (_ : Path α) (w : View α) : Prop := name ∈ w.fieldNames
    have hiff := onward_iff P choices hn hv hl
    refine Iff.trans ?_ hiff.symm
    rw [List.mem_append]
    exact or_congr_right (mem_below_iff hb fun x hx found hf => (ih x hx found hf).fields name)
  · let P (choices' : List Nat) (path' : Path α) (w : View α) : Prop :=
      sighting ∈ sightingsAt base choices' path' w
    have hiff := onward_iff P choices hn hv hl
    refine Iff.trans ?_ hiff.symm
    rw [List.mem_append, or_comm]
    exact or_congr_right
      (mem_below_iff hb fun x hx found hf => (ih x hx found hf).sightings sighting)
  · rw [List.map_append]
    refine List.Nodup.append (nodup_below hb (nodup_hops hl) fun x hx found hf =>
      ⟨(ih x hx found hf).nodup, hsuffix x hx found hf⟩) (nodup_sightingsAt ..) ?_
    intro site hs hs'
    obtain ⟨a, ha, rfl⟩ := List.mem_map.1 hs
    obtain ⟨b, hb', hab⟩ := List.mem_map.1 hs'
    obtain ⟨x, hx, found, hf, ha⟩ := (mem_flatMap_of_mapM hb).1 ha
    have hlen := (hsuffix x hx found hf a ha).length_le
    rw [← hab, site_of_sightingsAt hb', List.length_cons] at hlen
    omega

/-- A successful exploration has come back to a type, or it has explored what comes next. -/
theorem explore_ok {limit base budget : Nat} {choices : List Nat} {path : Path α} {t : α}
    {found : Survey α} (h : explore g limit base budget choices path t = .ok found) :
    (path.visits g t = true ∧ found = ⟨[], []⟩) ∨
      ∃ b v l below, path.visits g t = false ∧ g.view t = .ok v ∧ budget = b + 1 ∧
        hops g v = .ok l ∧
        l.mapM (fun h => explore g limit base b (h.1 :: choices) (stepOf t v :: path) h.2) =
          .ok below ∧
        found = ⟨v.fieldNames ++ below.flatMap (·.fields),
          below.flatMap (·.sightings) ++ sightingsAt base choices (stepOf t v :: path) v⟩ := by
  cases hn : path.visits g t with
  | true => exact .inl ⟨rfl, Except.ok.inj (h.symm.trans (explore_visited _ hn))⟩
  | false =>
    cases hv : g.view t with
    | error e =>
      rw [explore_unviewed _ hn hv] at h
      cases h
    | ok v =>
      cases budget with
      | zero =>
        rw [explore_limited hn hv] at h
        cases h
      | succ b =>
        rw [explore_new _ hn hv] at h
        cases hl : hops g v with
        | error e => simp [hl, bind, Except.bind] at h
        | ok l =>
          cases hb : l.mapM fun h =>
              explore g limit base b (h.1 :: choices) (stepOf t v :: path) h.2 with
          | error e => simp [hl, hb, bind, Except.bind] at h
          | ok below =>
            simp only [hl, hb, bind, Except.bind, Except.ok.injEq] at h
            exact .inr ⟨b, v, l, below, rfl, rfl, rfl, hl, hb, h.symm⟩

/-- What a successful exploration finds is exactly what there is to find. -/
theorem exact_of_explore {limit base budget : Nat} {choices : List Nat} {path : Path α} {t : α}
    {found : Survey α} (h : explore g limit base budget choices path t = .ok found) :
    found.Exact g base choices path t := by
  induction budget using Nat.strongRecOn generalizing choices path t found with
  | ind budget ih =>
    obtain ⟨hn, rfl⟩ | ⟨b, v, l, below, hn, hv, rfl, hl, hb, rfl⟩ := explore_ok h
    · exact exact_of_visited hn rfl
    · exact exact_of_below hn hv hl hb fun x _ found hx => ih b (Nat.lt_succ_self b) hx

end TypeIdentity.Promotion
