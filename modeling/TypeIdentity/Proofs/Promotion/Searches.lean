import TypeIdentity.Promotion.Fields
import TypeIdentity.Proofs.Guarantee
import TypeIdentity.Proofs.Promotion.Surveys

/-! # Searches for fields

A search goes from named types to their underlying types, from embedded pointers to their pointees,
and from structs without an accepted field to the types of their embedded fields.  A field that it
finds is reached in this way; any other field that is reached lies in a branch with two fields or
more, which the search takes for a branch without one.
-/
namespace TypeIdentity
variable {α : Type} {g : TypeGraph α}

namespace View

/-- The fields of a struct; no other type has fields. -/
def fields : View α → List (Field α)
  | shape (.struct fs) => fs
  | _ => []

def isStruct : View α → Bool
  | shape (.struct _) => true
  | _ => false

theorem struct_of_isStruct {v : View α} (h : v.isStruct = true) : ∃ fs, v = shape (.struct fs) := by
  rcases v with (_ | _ | _ | _ | _ | _ | fs | _ | _) | _
  case shape.struct => exact ⟨fs, rfl⟩
  all_goals cases h

theorem fieldNames_eq (v : View α) : v.fieldNames = v.fields.map (·.name) := by
  rcases v with (_ | _ | _ | _ | _ | _ | _ | _ | _) | _ <;> rfl

end View

namespace Promotion
variable {accepts : String → Bool} {limit budget : Nat} {path : List α} {embedded : Bool} {t u : α}
  {v : View α}

/-! ## Steps of searches -/

/-- The types that a search goes on to, each with its position among the fields of a struct. -/
def inward (g : TypeGraph α) (embedded : Bool) : View α → Except Error (List (Nat × α))
  | .named n => .ok [(0, n.underlying)]
  | .shape (.pointer e) => do
    if !embedded then return []
    else if (← g.view e).isPointer then return []
    else return [(0, e)]
  | .shape (.struct fs) =>
    .ok ((fs.zipIdx.filter (·.1.embedded)).map fun f => (f.2, f.1.type))
  | _ => .ok []

theorem search_visited (h : (path.any fun s => g.same s t) = true) :
    search g accepts limit budget path embedded t = .ok none := by
  unfold search
  rw [if_pos h]
  rfl

theorem search_unviewed {e : Error} (hn : (path.any fun s => g.same s t) = false)
    (hv : g.view t = .error e) : search g accepts limit budget path embedded t = .error e := by
  unfold search
  rw [if_neg (Bool.eq_false_iff.1 hn), hv]
  rfl

theorem search_limited (hn : (path.any fun s => g.same s t) = false) (hv : g.view t = .ok v) :
    search g accepts limit 0 path embedded t = .error (.traversalLimit limit (g.describe t)) := by
  rw [search, if_neg (Bool.eq_false_iff.1 hn), hv]
  rfl

theorem search_named {n : NamedView α} (hn : (path.any fun s => g.same s t) = false)
    (hv : g.view t = .ok (.named n)) : search g accepts limit (budget + 1) path embedded t =
      search g accepts limit budget (t :: path) embedded n.underlying := by
  rw [search, if_neg (Bool.eq_false_iff.1 hn), hv]
  rfl

theorem search_direct (hn : (path.any fun s => g.same s t) = false) (hv : g.view t = .ok v)
    (hd : (v.fields.filter fun f => accepts f.name) ≠ []) :
    search g accepts limit (budget + 1) path embedded t =
      .ok (only? (v.fields.filter fun f => accepts f.name)) := by
  rw [search, if_neg (Bool.eq_false_iff.1 hn), hv]
  rcases v with (_ | _ | _ | _ | _ | _ | fs | _ | e) | n
  case shape.struct =>
    simp only [View.fields] at hd ⊢
    simp only [bind, Except.bind, pure, Except.pure]
  all_goals exact absurd rfl hd

theorem search_inward (hn : (path.any fun s => g.same s t) = false) (hv : g.view t = .ok v)
    (hd : (v.fields.filter fun f => accepts f.name) = []) :
    search g accepts limit (budget + 1) path embedded t = (inward g embedded v >>= fun l =>
      l.mapM (fun h => search g accepts limit budget (t :: path) (embedded || v.isStruct) h.2) >>=
        fun hits => .ok (only? (hits.filterMap id))) := by
  have hone (b : Bool) (e : α) :
      ([(0, e)].mapM (fun h : Nat × α => search g accepts limit budget (t :: path) b h.2) >>=
        fun hits => .ok (only? (hits.filterMap id))) =
      search g accepts limit budget (t :: path) b e := by
    rw [List.mapM_cons]
    cases search g accepts limit budget (t :: path) b e with
    | error => rfl
    | ok found => cases found <;> rfl
  rw [search, if_neg (Bool.eq_false_iff.1 hn), hv]
  rcases v with (_ | _ | _ | _ | _ | _ | fs | _ | e) | n
  case shape.struct =>
    have hfields := map_filter_zipIdx (fun f : Field α => f.embedded) (fun f => f.type) fs
    simp only [View.fields] at hd
    simp only [inward, View.isStruct, Bool.or_true, bind, Except.bind, hd]
    have hinner : ((fs.zipIdx.filter (·.1.embedded)).map fun f => (f.2, f.1.type)).mapM
        (fun h => search g accepts limit budget (t :: path) true h.2) =
        (fs.filter (·.embedded)).mapM
          fun f => search g accepts limit budget (t :: path) true f.type := by
      calc
        _ = ((fs.zipIdx.filter (·.1.embedded)).map fun f => f.1.type).mapM
            (search g accepts limit budget (t :: path) true) := by
          rw [List.mapM_map, List.mapM_map]
          rfl
        _ = _ := by
          rw [hfields, List.mapM_map]
          rfl
    rw [hinner]
    rfl
  case shape.pointer =>
    simp only [inward, View.isStruct, Bool.or_false, bind, Except.bind]
    cases embedded with
    | false => rfl
    | true =>
      cases g.view e with
      | error => rfl
      | ok w =>
        cases hp : w.isPointer with
        | true =>
          simp only [hp]
          rfl
        | false =>
          simp only [hp]
          exact (hone true e).symm
  case named =>
    simp only [inward, View.isStruct, Bool.or_false, bind, Except.bind] at hone ⊢
    exact (hone embedded n.underlying).symm
  all_goals rfl

/-- One step of a search: from a struct by the position of the embedded field, and with the number
of embedded fields entered by the step.  Pointers are followed behind embedded fields only. -/
inductive Enters (g : TypeGraph α) (accepts : String → Bool) :
    Bool → α → Nat → Nat → Bool → α → Prop
  | underlying {embedded : Bool} {t : α} {n : NamedView α} (hv : g.view t = .ok (.named n)) :
      Enters g accepts embedded t 0 0 embedded n.underlying
  | pointee {t e : α} {v : View α} (hv : g.view t = .ok (.shape (.pointer e)))
      (he : g.view e = .ok v) (hp : v.isPointer = false) : Enters g accepts true t 0 0 true e
  | embedded {embedded : Bool} {t : α} {fs : List (Field α)} {i : Nat} {f : Field α}
      (hv : g.view t = .ok (.shape (.struct fs)))
      (hn : (fs.filter fun f => accepts f.name) = []) (hf : fs[i]? = some f)
      (he : f.embedded = true) : Enters g accepts embedded t i 1 true f.type

/-- A field that is reached from a type, with the types on the way, the choices made on it and the
number of embedded fields entered. -/
inductive Reaches (g : TypeGraph α) (accepts : String → Bool) :
    Bool → α → List α → List Nat → Nat → Field α → Prop
  | direct {embedded : Bool} {t : α} {v : View α} {i : Nat} {f : Field α}
      (hv : g.view t = .ok v) (hf : v.fields[i]? = some f) (ha : accepts f.name = true) :
      Reaches g accepts embedded t [t] [i] 0 f
  | inside {embedded embedded' : Bool} {t u : α} {types : List α} {site : List Nat}
      {i k depth : Nat} {f : Field α} (he : Enters g accepts embedded t i k embedded' u)
      (h : Reaches g accepts embedded' u types site depth f) :
      Reaches g accepts embedded t (t :: types) (i :: site) (depth + k) f

/-- No type on the way is the same as one before it or on the path. -/
def Apart (g : TypeGraph α) : List α → List α → Prop
  | _, [] => True
  | path, t :: types => (path.any fun s => g.same s t) = false ∧ Apart g (t :: path) types

/-- The second way and the third leave the first one together. -/
inductive LeaveTogether : List Nat → List Nat → List Nat → Prop
  | here {i j : Nat} {site site' site'' : List Nat} (h : i ≠ j) :
      LeaveTogether (i :: site) (j :: site') (j :: site'')
  | later {i : Nat} {site site' site'' : List Nat} (h : LeaveTogether site site' site'') :
      LeaveTogether (i :: site) (i :: site') (i :: site'')

theorem enters_unique {i k k' : Nat} {e e' : Bool} {u u' : α}
    (h : Enters g accepts embedded t i k e u) (h' : Enters g accepts embedded t i k' e' u') :
    k = k' ∧ e = e' ∧ u = u' := by
  cases h <;> cases h' <;> grind

theorem Enters.fields_eq_nil {i k : Nat} {e : Bool} (h : Enters g accepts embedded t i k e u)
    (hv : g.view t = .ok v) : (v.fields.filter fun f => accepts f.name) = [] := by
  cases h with
  | underlying hv' =>
    obtain rfl := Except.ok.inj (hv.symm.trans hv')
    rfl
  | pointee hv' _ _ =>
    obtain rfl := Except.ok.inj (hv.symm.trans hv')
    rfl
  | embedded hv' hn _ _ =>
    obtain rfl := Except.ok.inj (hv.symm.trans hv')
    exact hn

theorem Enters.flag {i k : Nat} {embedded' : Bool} (h : Enters g accepts embedded t i k embedded' u)
    (hv : g.view t = .ok v) : embedded' = (embedded || v.isStruct) := by
  cases h with
  | underlying hv' =>
    obtain rfl := Except.ok.inj (hv.symm.trans hv')
    exact (Bool.or_false _).symm
  | pointee => rfl
  | embedded hv' _ _ _ =>
    obtain rfl := Except.ok.inj (hv.symm.trans hv')
    exact (Bool.or_true _).symm

theorem mem_inward {l : List (Nat × α)} {i : Nat} (hv : g.view t = .ok v)
    (hd : (v.fields.filter fun f => accepts f.name) = []) (hl : inward g embedded v = .ok l) :
    (i, u) ∈ l ↔ ∃ k, Enters g accepts embedded t i k (embedded || v.isStruct) u := by
  constructor
  · intro hm
    rcases v with (_ | _ | _ | _ | _ | _ | fs | _ | e) | n
    case shape.struct =>
      obtain rfl := Except.ok.inj hl
      obtain ⟨⟨f, j⟩, hf, he⟩ := List.mem_map.1 hm
      obtain ⟨hf, hemb⟩ := List.mem_filter.1 hf
      obtain ⟨rfl, rfl⟩ := Prod.mk.inj he
      simp only [View.isStruct, Bool.or_true]
      exact ⟨1, .embedded hv hd (List.mem_zipIdx_iff_getElem?.1 hf) hemb⟩
    case shape.pointer =>
      cases embedded with
      | false =>
        obtain rfl := Except.ok.inj hl
        cases hm
      | true =>
        cases he : g.view e with
        | error => simp [inward, he, bind, Except.bind] at hl
        | ok w =>
          cases hp : w.isPointer with
          | true =>
            simp [inward, he, hp, bind, Except.bind, pure, Except.pure] at hl
            subst hl
            cases hm
          | false =>
            simp [inward, he, hp, bind, Except.bind, pure, Except.pure] at hl
            subst hl
            obtain ⟨rfl, rfl⟩ := Prod.mk.inj (List.mem_singleton.1 hm)
            exact ⟨0, .pointee hv he hp⟩
    case named =>
      obtain rfl := Except.ok.inj hl
      obtain ⟨rfl, rfl⟩ := Prod.mk.inj (List.mem_singleton.1 hm)
      simp only [View.isStruct, Bool.or_false]
      exact ⟨0, .underlying hv⟩
    all_goals
      obtain rfl := Except.ok.inj hl
      cases hm
  · rintro ⟨k, h⟩
    generalize (embedded || v.isStruct) = embedded' at h
    cases h with
    | underlying hv' =>
      obtain rfl := Except.ok.inj (hv.symm.trans hv')
      obtain rfl := Except.ok.inj hl
      exact List.mem_singleton_self _
    | @pointee _ _ w hv' hw hp =>
      obtain rfl := Except.ok.inj (hv.symm.trans hv')
      simp [inward, hw, hp, bind, Except.bind, pure, Except.pure] at hl
      subst hl
      exact List.mem_singleton_self _
    | @embedded _ _ fs _ f hv' hn hf he =>
      obtain rfl := Except.ok.inj (hv.symm.trans hv')
      obtain rfl := Except.ok.inj hl
      refine List.mem_map.2 ⟨(f, i), List.mem_filter.2 ⟨?_, he⟩, rfl⟩
      exact List.mem_zipIdx_iff_getElem?.2 hf

theorem nodup_inward {l : List (Nat × α)} (hl : inward g embedded v = .ok l) :
    (l.map Prod.fst).Nodup := by
  rcases v with (_ | _ | _ | _ | _ | _ | fs | _ | e) | n
  case shape.struct =>
    obtain rfl := Except.ok.inj hl
    rw [List.map_map]
    exact nodup_positions _ fs
  case shape.pointer =>
    cases embedded with
    | false =>
      obtain rfl := Except.ok.inj hl
      simp
    | true =>
      cases he : g.view e with
      | error => simp [inward, he, bind, Except.bind] at hl
      | ok w =>
        cases hp : w.isPointer <;>
          simp [inward, he, hp, bind, Except.bind, pure, Except.pure] at hl <;> subst hl <;> simp
  case named =>
    obtain rfl := Except.ok.inj hl
    simp
  all_goals
    obtain rfl := Except.ok.inj hl
    simp

/-! ## Branches -/

section Branches
variable {β : Type} {branches : List (Nat × Option β)} {b : β} {i : Nat}

/-- A branch is the only one with a result. -/
theorem only?_eq_some_iff (hn : (branches.map Prod.fst).Nodup) :
    only? (branches.filterMap Prod.snd) = some b ↔
      ∃ i, (i, some b) ∈ branches ∧ ∀ j c, (j, some c) ∈ branches → j = i := by
  induction branches with
  | nil => simp [only?]
  | cons x branches ih =>
    obtain ⟨k, found⟩ := x
    obtain ⟨hk, hnodup⟩ := List.nodup_cons.1 hn
    cases found with
    | none => simpa using ih hnodup
    | some c =>
      have hother : ∀ j d, (j, some d) ∈ branches → j ≠ k := by
        rintro j d hm rfl
        have hmem := List.mem_map_of_mem (f := Prod.fst) hm
        exact hk hmem
      cases hrest : branches.filterMap Prod.snd with
      | nil =>
        have hnone : ∀ j d, (j, some d) ∉ branches := by
          intro j d hm
          have hd : d ∈ branches.filterMap Prod.snd := List.mem_filterMap.2 ⟨_, hm, rfl⟩
          rw [hrest] at hd
          cases hd
        simp [hrest, only?, hnone, eq_comm]
      | cons d rest =>
        have hd : d ∈ branches.filterMap Prod.snd := hrest ▸ List.mem_cons_self ..
        obtain ⟨⟨j, found⟩, hj, rfl⟩ := List.mem_filterMap.1 hd
        have hjk := hother j d hj
        simp only [List.filterMap_cons, hrest, only?]
        refine iff_of_false (by simp) ?_
        rintro ⟨i, -, hall⟩
        have hki := hall k c (List.mem_cons_self ..)
        have hji := hall j d (List.mem_cons_of_mem _ hj)
        exact hjk (hji.trans hki.symm)

/-- Where no result is the only one, there is another one beside each. -/
theorem exists_other (hn : (branches.map Prod.fst).Nodup)
    (h : only? (branches.filterMap Prod.snd) = none) (hb : (i, some b) ∈ branches) :
    ∃ j c, (j, some c) ∈ branches ∧ j ≠ i := by
  by_contra hno
  have hall : ∀ j c, (j, some c) ∈ branches → j = i := by
    intro j c hm
    by_contra hne
    exact hno ⟨j, c, hm, hne⟩
  rw [(only?_eq_some_iff hn).2 ⟨i, hb, hall⟩] at h
  cases h

end Branches

/-! ## What searches find -/

/-- The branches that a search compares at a type: the fields accepted there, or where there are
none, what the searches of the next types find. -/
structure Compares (g : TypeGraph α) (accepts : String → Bool) (limit budget : Nat)
    (path : List α) (embedded : Bool) (t : α) (branches : List (Nat × Option (Field α))) :
    Prop where
  nodup : (branches.map Prod.fst).Nodup
  view : ∃ v, g.view t = .ok v ∧
    (((v.fields.filter fun f => accepts f.name) ≠ [] ∧ ∀ i found, (i, found) ∈ branches ↔
      ∃ f, v.fields[i]? = some f ∧ accepts f.name = true ∧ found = some f) ∨
    ((v.fields.filter fun f => accepts f.name) = [] ∧
      (∀ i found, (i, found) ∈ branches → ∃ k embedded' u,
        Enters g accepts embedded t i k embedded' u ∧
          search g accepts limit budget (t :: path) embedded' u = .ok found) ∧
      ∀ i k embedded' u, Enters g accepts embedded t i k embedded' u → ∃ found,
        (i, found) ∈ branches ∧ search g accepts limit budget (t :: path) embedded' u = .ok found))

theorem exists_compares_direct (hv : g.view t = .ok v)
    (hd : (v.fields.filter fun f => accepts f.name) ≠ []) : ∃ branches,
      Compares g accepts limit budget path embedded t branches ∧
        only? (v.fields.filter fun f => accepts f.name) =
          only? (branches.filterMap Prod.snd) := by
  let kept := v.fields.zipIdx.filter fun x => accepts x.1.name
  refine ⟨kept.map fun x => (x.2, some x.1), ⟨?_, v, hv, .inl ⟨hd, fun i found => ?_⟩⟩, ?_⟩
  · rw [List.map_map]
    exact nodup_positions _ v.fields
  · constructor
    · intro hm
      obtain ⟨⟨f, j⟩, hf, he⟩ := List.mem_map.1 hm
      obtain ⟨hf, ha⟩ := List.mem_filter.1 hf
      obtain ⟨rfl, rfl⟩ := Prod.mk.inj he
      exact ⟨f, List.mem_zipIdx_iff_getElem?.1 hf, ha, rfl⟩
    · rintro ⟨f, hf, ha, rfl⟩
      exact List.mem_map.2
        ⟨(f, i), List.mem_filter.2 ⟨List.mem_zipIdx_iff_getElem?.2 hf, ha⟩, rfl⟩
  · have hfields := map_filter_zipIdx (fun f : Field α => accepts f.name) id v.fields
    rw [List.map_id] at hfields
    rw [← hfields, List.filterMap_map, ← List.filterMap_eq_map]
    rfl

theorem exists_compares_inward {l : List (Nat × α)} {hits : List (Option (Field α))}
    (hv : g.view t = .ok v) (hd : (v.fields.filter fun f => accepts f.name) = [])
    (hl : inward g embedded v = .ok l)
    (hh : l.mapM (fun h => search g accepts limit budget (t :: path) (embedded || v.isStruct) h.2) =
      .ok hits) : ∃ branches, Compares g accepts limit budget path embedded t branches ∧
        hits.filterMap id = branches.filterMap Prod.snd := by
  obtain ⟨zs, hfst, rfl, hz⟩ := Guarantee.except.mapM_pairs
    (R := fun x found => search g accepts limit budget (t :: path) (embedded || v.isStruct) x.2 =
      .ok found) (fun x _ found hf => hf) hits hh
  refine ⟨zs.map fun z => (z.1.1, z.2), ⟨?_, v, hv, .inr ⟨hd, fun i found hm => ?_,
    fun i k embedded' u hin => ?_⟩⟩, ?_⟩
  · have hnodup := nodup_inward hl
    rw [← hfst] at hnodup
    rw [List.map_map] at hnodup ⊢
    exact hnodup
  · obtain ⟨⟨⟨j, u⟩, r⟩, hr, he⟩ := List.mem_map.1 hm
    obtain ⟨rfl, rfl⟩ := Prod.mk.inj he
    have hu : (j, u) ∈ l := by
      rw [← hfst]
      exact List.mem_map_of_mem (f := Prod.fst) hr
    obtain ⟨k, hin⟩ := (mem_inward hv hd hl).1 hu
    exact ⟨k, _, u, hin, hz _ hr⟩
  · obtain rfl := hin.flag hv
    have hu : (i, u) ∈ l := (mem_inward hv hd hl).2 ⟨k, hin⟩
    rw [← hfst] at hu
    obtain ⟨⟨x, found⟩, hm, rfl⟩ := List.mem_map.1 hu
    exact ⟨found, List.mem_map.2 ⟨_, hm, rfl⟩, hz _ hm⟩
  · rw [List.filterMap_map, List.filterMap_map]
    rfl

/-- A successful search has come back to a type, or the field that it finds is in the only branch
with a field. -/
theorem search_ok {found : Option (Field α)}
    (h : search g accepts limit budget path embedded t = .ok found) :
    ((path.any fun s => g.same s t) = true ∧ found = none) ∨
    ((path.any fun s => g.same s t) = false ∧ ∃ b branches,
      Compares g accepts limit b path embedded t branches ∧ b < budget ∧
        found = only? (branches.filterMap Prod.snd)) := by
  cases hn : path.any fun s => g.same s t with
  | true => exact .inl ⟨rfl, (Except.ok.inj ((search_visited hn).symm.trans h)).symm⟩
  | false =>
    refine .inr ⟨rfl, ?_⟩
    cases hv : g.view t with
    | error e =>
      rw [search_unviewed hn hv] at h
      cases h
    | ok v =>
      cases budget with
      | zero =>
        rw [search_limited hn hv] at h
        cases h
      | succ budget =>
        by_cases hd : (v.fields.filter fun f => accepts f.name) = []
        · rw [search_inward hn hv hd] at h
          cases hl : inward g embedded v with
          | error e => simp [hl, bind, Except.bind] at h
          | ok l =>
            cases hh : l.mapM fun h =>
                search g accepts limit budget (t :: path) (embedded || v.isStruct) h.2 with
            | error e => simp [hl, hh, bind, Except.bind] at h
            | ok hits =>
              simp only [hl, hh, bind, Except.bind, Except.ok.injEq] at h
              obtain ⟨branches, hc, he⟩ := exists_compares_inward hv hd hl hh
              exact ⟨budget, branches, hc, Nat.lt_succ_self _, by rw [← h, he]⟩
        · rw [search_direct hn hv hd] at h
          have hdirect : ∃ branches, Compares g accepts limit budget path embedded t branches ∧ _ :=
            exists_compares_direct hv hd
          obtain ⟨branches, hc, he⟩ := hdirect
          exact ⟨budget, branches, hc, Nat.lt_succ_self _, (Except.ok.inj h).symm.trans he⟩

/-- A field is reached along types that are apart from each other and from those on the path. -/
def Occurs (g : TypeGraph α) (accepts : String → Bool) (path : List α) (embedded : Bool) (t : α)
    (site : List Nat) (depth : Nat) (f : Field α) : Prop :=
  ∃ types, Reaches g accepts embedded t types site depth f ∧ Apart g path types

variable {site : List Nat} {depth : Nat} {f : Field α}

theorem Occurs.new (h : Occurs g accepts path embedded t site depth f) :
    (path.any fun s => g.same s t) = false := by
  obtain ⟨types, hr, ha⟩ := h
  cases hr with
  | direct => exact ha.1
  | inside => exact ha.1

theorem Occurs.inside {i k : Nat} {embedded' : Bool} (hn : (path.any fun s => g.same s t) = false)
    (he : Enters g accepts embedded t i k embedded' u)
    (h : Occurs g accepts (t :: path) embedded' u site depth f) :
    Occurs g accepts path embedded t (i :: site) (depth + k) f := by
  obtain ⟨types, hr, ha⟩ := h
  exact ⟨t :: types, .inside he hr, hn, ha⟩

theorem Occurs.cases_direct (ho : Occurs g accepts path embedded t site depth f)
    (hv : g.view t = .ok v) (hd : (v.fields.filter fun f => accepts f.name) ≠ []) :
    ∃ i, site = [i] ∧ v.fields[i]? = some f ∧ accepts f.name = true := by
  obtain ⟨types, hr, -⟩ := ho
  cases hr with
  | direct hv' hf ha =>
    obtain rfl := Except.ok.inj (hv.symm.trans hv')
    exact ⟨_, rfl, hf, ha⟩
  | inside he _ => exact absurd (he.fields_eq_nil hv) hd

theorem Occurs.cases_inward (ho : Occurs g accepts path embedded t site depth f)
    (hv : g.view t = .ok v) (hd : (v.fields.filter fun f => accepts f.name) = []) :
    ∃ i k embedded' u rest d, site = i :: rest ∧ Enters g accepts embedded t i k embedded' u ∧
      Occurs g accepts (t :: path) embedded' u rest d f := by
  obtain ⟨types, hr, happart⟩ := ho
  cases hr with
  | direct hv' hf ha =>
    obtain rfl := Except.ok.inj (hv.symm.trans hv')
    exact absurd ha (List.filter_eq_nil_iff.1 hd f (List.mem_of_getElem? hf))
  | inside he hr => exact ⟨_, _, _, _, _, _, rfl, he, _, hr, happart.2⟩

/-- A field that is found occurs. -/
theorem occurs_of_search (h : search g accepts limit budget path embedded t = .ok (some f)) :
    ∃ site depth, Occurs g accepts path embedded t site depth f := by
  induction budget using Nat.strongRecOn generalizing path embedded t with
  | ind budget ih =>
    obtain ⟨-, h⟩ | ⟨hn, b, branches, hc, hb, hf⟩ := search_ok h
    · cases h
    · obtain ⟨i, hm, -⟩ := (only?_eq_some_iff hc.nodup).1 hf.symm
      obtain ⟨v, hv, ⟨-, hall⟩ | ⟨-, hfrom, -⟩⟩ := hc.view
      · obtain ⟨f', hf', ha, he⟩ := (hall i _).1 hm
        obtain rfl := Option.some.inj he
        exact ⟨[i], 0, [t], .direct hv hf' ha, hn, trivial⟩
      · obtain ⟨k, embedded', u, he, hs⟩ := hfrom i _ hm
        obtain ⟨site, depth, ho⟩ := ih b hb hs
        exact ⟨i :: site, depth + k, ho.inside hn he⟩

/-- In every branch with a field, one occurs. -/
theorem Compares.occurs {branches : List (Nat × Option (Field α))} {i : Nat}
    (hc : Compares g accepts limit budget path embedded t branches)
    (hn : (path.any fun s => g.same s t) = false) (hm : (i, some f) ∈ branches) :
    ∃ rest depth, Occurs g accepts path embedded t (i :: rest) depth f := by
  obtain ⟨v, hv, ⟨-, hall⟩ | ⟨-, hfrom, -⟩⟩ := hc.view
  · obtain ⟨f', hf', ha, he⟩ := (hall i _).1 hm
    obtain rfl := Option.some.inj he
    exact ⟨[], 0, [t], .direct hv hf' ha, hn, trivial⟩
  · obtain ⟨k, embedded', u, he, hs⟩ := hfrom i _ hm
    obtain ⟨rest, depth, ho⟩ := occurs_of_search hs
    exact ⟨rest, depth + k, ho.inside hn he⟩

/-- Where nothing is found, no field occurs alone. -/
theorem exists_other_of_search (h : search g accepts limit budget path embedded t = .ok none)
    (ho : Occurs g accepts path embedded t site depth f) :
    ∃ site' depth' f', Occurs g accepts path embedded t site' depth' f' ∧ site' ≠ site := by
  induction budget using Nat.strongRecOn generalizing path embedded t site depth with
  | ind budget ih =>
    have hn := ho.new
    obtain ⟨hvisit, -⟩ | ⟨-, b, branches, hc, hb, hf⟩ := search_ok h
    · rw [hn] at hvisit
      cases hvisit
    · have hother {i : Nat} {rest : List Nat} {f : Field α} (hm : (i, some f) ∈ branches) :
          ∃ site' depth' f', Occurs g accepts path embedded t site' depth' f' ∧
            site' ≠ i :: rest := by
        obtain ⟨j, f', hj, hne⟩ := exists_other hc.nodup hf.symm hm
        obtain ⟨rest', depth', ho'⟩ := hc.occurs hn hj
        exact ⟨_, _, _, ho', fun he => hne (List.cons.inj he).1⟩
      obtain ⟨v, hv, ⟨hd, hall⟩ | ⟨hd, -, hinto⟩⟩ := hc.view
      · obtain ⟨i, rfl, hi, ha⟩ := ho.cases_direct hv hd
        exact hother ((hall i _).2 ⟨f, hi, ha, rfl⟩)
      · obtain ⟨i, k, embedded', u, rest, d, rfl, he, hin⟩ := ho.cases_inward hv hd
        obtain ⟨found, hm, hs⟩ := hinto i k embedded' u he
        cases found with
        | some f' => exact hother hm
        | none =>
          obtain ⟨rest', d', f', ho', hne⟩ := ih b hb hs hin
          exact ⟨_, _, _, ho'.inside hn he, fun he => hne (List.cons.inj he).2⟩

/-- What else occurs beside a field that is found is in a branch with two fields or more. -/
theorem leaveTogether_of_search
    (h : search g accepts limit budget path embedded t = .ok (some f)) :
    ∃ site depth, Occurs g accepts path embedded t site depth f ∧
      ∀ site' depth' f', Occurs g accepts path embedded t site' depth' f' → site' ≠ site →
        ∃ site'' depth'' f'', Occurs g accepts path embedded t site'' depth'' f'' ∧
          site'' ≠ site' ∧ LeaveTogether site site' site'' := by
  induction budget using Nat.strongRecOn generalizing path embedded t with
  | ind budget ih =>
    obtain ⟨-, h⟩ | ⟨hn, b, branches, hc, hb, hf⟩ := search_ok h
    · cases h
    · obtain ⟨i, hm, hunique⟩ := (only?_eq_some_iff hc.nodup).1 hf.symm
      obtain ⟨v, hv, ⟨hd, hall⟩ | ⟨hd, hfrom, hinto⟩⟩ := hc.view
      · obtain ⟨f', hf', ha, he⟩ := (hall i _).1 hm
        obtain rfl := Option.some.inj he
        refine ⟨[i], 0, ⟨[t], .direct hv hf' ha, hn, trivial⟩, fun site' depth' f' ho hne => ?_⟩
        obtain ⟨j, rfl, hj, ha'⟩ := ho.cases_direct hv hd
        exact absurd (congrArg (fun j => [j]) (hunique j f' ((hall j _).2 ⟨f', hj, ha', rfl⟩))) hne
      · obtain ⟨k, embedded', u, he, hs⟩ := hfrom i _ hm
        obtain ⟨site, depth, hsite, hothers⟩ := ih b hb hs
        refine ⟨i :: site, depth + k, hsite.inside hn he, fun site' depth' f' ho hne => ?_⟩
        obtain ⟨j, k', embedded'', u', rest, d, rfl, he', hin⟩ := ho.cases_inward hv hd
        by_cases hji : j = i
        · subst hji
          obtain ⟨rfl, rfl, rfl⟩ := enters_unique he he'
          obtain ⟨rest'', d'', f'', ho'', hne'', hleave⟩ :=
            hothers rest d f' hin fun h => hne (h ▸ rfl)
          exact ⟨_, _, _, ho''.inside hn he, fun h => hne'' (List.cons.inj h).2, hleave.later⟩
        · obtain ⟨found, hj, hs'⟩ := hinto j k' embedded'' u' he'
          cases found with
          | some f'' => exact absurd (hunique j f'' hj) hji
          | none =>
            -- two fields occur in the other branch, as the search finds none there
            obtain ⟨rest'', d'', f'', ho'', hne''⟩ := exists_other_of_search hs' hin
            exact ⟨_, _, _, ho''.inside hn he', fun h => hne'' (List.cons.inj h).2,
              .here fun h => hji h.symm⟩

end Promotion
end TypeIdentity
