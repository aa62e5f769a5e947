import TypeIdentity.Proofs.Promotion.Paths
import TypeIdentity.Proofs.Views

/-! # Coherent graphs

A graph is coherent when types that are the same have the same views, up to what counts of the types
in them.  What a path does at a type it then also does at all types that are the same.
-/
namespace TypeIdentity
variable {α : Type} {g : TypeGraph α}

namespace Shape
variable {z : Shape α} {key : α → α}

theorem struct_of_mapChildren_eq {fs : List (Field α)}
    (h : z.mapChildren key = (struct fs).mapChildren key) : ∃ gs, z = struct gs ∧
      (gs.map fun x => (⟨x.name, key x.type, x.tag, x.embedded⟩ : Field α)) =
        fs.map fun x => ⟨x.name, key x.type, x.tag, x.embedded⟩ := by
  cases z <;> simp only [mapChildren, reduceCtorEq] at h
  case struct gs => exact ⟨gs, rfl, Shape.struct.inj h⟩

/-- Fields of structs that agree up to keys, one by one. -/
theorem exists_field {fs gs : List (Field α)} {i : Nat} {f : Field α}
    (h : (gs.map fun x => (⟨x.name, key x.type, x.tag, x.embedded⟩ : Field α)) =
      fs.map fun x => ⟨x.name, key x.type, x.tag, x.embedded⟩) (hf : fs[i]? = some f) :
    ∃ x, gs[i]? = some x ∧ key x.type = key f.type ∧ x.embedded = f.embedded := by
  have hi := congrArg (·[i]?) h
  rw [List.getElem?_map, List.getElem?_map, hf] at hi
  obtain ⟨x, hx, hmap⟩ := Option.map_eq_some_iff.1 hi
  obtain ⟨-, htype, -, hemb⟩ := Field.mk.inj hmap
  exact ⟨x, hx, htype, hemb⟩

theorem pointer_of_mapChildren_eq {e : α} (h : z.mapChildren key = (pointer e).mapChildren key) :
    ∃ e', z = pointer e' ∧ key e' = key e := by
  cases z <;> simp only [mapChildren, reduceCtorEq] at h
  case pointer e' => exact ⟨e', rfl, Shape.pointer.inj h⟩

end Shape

namespace View
variable {v w : View α} {key : α → α}

theorem named_of_map_eq {n : NamedView α} (h : w.map key = (named n).map key) :
    ∃ m, w = named m ∧ key m.underlying = key n.underlying ∧
      m.methods.map (·.map key) = n.methods.map (·.map key) := by
  cases w with
  | shape s => cases h
  | named m =>
    obtain ⟨-, -, -, hu, hm⟩ := NamedView.mk.inj (View.named.inj h)
    exact ⟨m, rfl, hu, hm⟩

theorem shape_of_map_eq {s : Shape α} (h : w.map key = (shape s).map key) :
    ∃ z, w = shape z ∧ z.mapChildren key = s.mapChildren key := by
  cases w with
  | shape z => exact ⟨z, rfl, View.shape.inj h⟩
  | named m => cases h

theorem offered_of_map_eq (h : w.map key = v.map key) :
    w.offered.map (·.map key) = v.offered.map (·.map key) := by
  cases v with
  | named n =>
    obtain ⟨m, rfl, -, hm⟩ := named_of_map_eq h
    exact hm
  | shape s =>
    obtain ⟨z, rfl, hz⟩ := shape_of_map_eq h
    have hoffered : ∀ x : Shape α, (View.shape x).offered.map (·.map key) =
        (View.shape (x.mapChildren key)).offered := by
      intro x
      cases x <;> simp [View.offered, Shape.mapChildren, Method.declared, DeclaredMethod.map]
    rw [hoffered, hoffered, hz]

theorem fieldNames_of_map_eq (h : w.map key = v.map key) : w.fieldNames = v.fieldNames := by
  have hnames : ∀ x : View α, (x.map key).fieldNames = x.fieldNames := by
    intro x
    rcases x with (_ | _ | _ | _ | _ | _ | _ | _ | _) | _ <;>
      simp [View.map, View.fieldNames, Shape.mapChildren]
  rw [← hnames w, h, hnames]

end View

namespace Promotion

/-- The types that views show, from the query on. -/
inductive Seen (g : TypeGraph α) (query : α) : α → Prop
  | query : Seen g query query
  | component {t c : α} {s : Shape α} (h : Seen g query t) (hv : g.view t = .ok (.shape s))
      (hc : c ∈ s.children) : Seen g query c
  | underlying {t : α} {n : NamedView α} (h : Seen g query t) (hv : g.view t = .ok (.named n)) :
      Seen g query n.underlying

/-- Types of one key are the same and have the same views up to keys; unnamed types are larger than
their components. -/
structure Coherent (g : TypeGraph α) (query : α) (key : α → α) (rank : α → Nat) : Prop where
  same_iff : ∀ t u, g.same t u = true ↔ key t = key u
  view {t u : α} (ht : Seen g query t) (hu : Seen g query u) (hk : key u = key t) {v : View α}
    (hv : g.view t = .ok v) : ∃ w, g.view u = .ok w ∧ w.map key = v.map key
  rank_lt : ∀ t s, g.view t = .ok (.shape s) → ∀ c ∈ s.children, rank (key c) < rank (key t)

namespace Coherent
variable {query : α} {key : α → α} {rank : α → Nat} {t u : α}

theorem isInterface (h : Coherent g query key rank) (ht : Seen g query t) (hu : Seen g query u)
    (hk : key u = key t) {b : Bool} (hi : g.isInterface t = .ok b) : g.isInterface u = .ok b := by
  unfold TypeGraph.isInterface at hi ⊢
  cases hv : g.view t with
  | error e => rw [hv] at hi; cases hi
  | ok v =>
    obtain ⟨w, hw, hm⟩ := h.view ht hu hk hv
    rw [hv] at hi
    rw [hw]
    cases v with
    | shape s =>
      obtain ⟨z, rfl, -⟩ := View.shape_of_map_eq hm
      have hb := congrArg View.isInterface hm
      rw [View.isInterface_map, View.isInterface_map] at hb
      exact (congrArg Except.ok hb).trans hi
    | named n =>
      obtain ⟨m, rfl, hku, -⟩ := View.named_of_map_eq hm
      cases hx : g.view n.underlying with
      | error e => simp [hx, bind, Except.bind] at hi
      | ok x =>
        obtain ⟨y, hy, hxy⟩ := h.view (.underlying ht hv) (.underlying hu hw) hku hx
        have hb := congrArg View.isInterface hxy
        rw [View.isInterface_map, View.isInterface_map] at hb
        simp only [hx, bind, Except.bind] at hi
        simp only [hy, bind, Except.bind]
        exact (congrArg Except.ok hb).trans hi

/-- Types that are the same lead to types that are the same. -/
theorem hop (h : Coherent g query key rank) (ht : Seen g query t) (hu : Seen g query u)
    (hk : key u = key t) {i : Nat} {a : α} (hh : Hop g t i a) :
    ∃ b, Hop g u i b ∧ key b = key a := by
  cases hh with
  | underlying hv =>
    obtain ⟨w, hw, hm⟩ := h.view ht hu hk hv
    obtain ⟨m, rfl, hku, -⟩ := View.named_of_map_eq hm
    exact ⟨m.underlying, .underlying hw, hku⟩
  | @embedded fs _ f hv hf he =>
    obtain ⟨w, hw, hm⟩ := h.view ht hu hk hv
    obtain ⟨z, rfl, hz⟩ := View.shape_of_map_eq hm
    obtain ⟨gs, rfl, hgs⟩ : ∃ gs, z = .struct gs ∧ _ := Shape.struct_of_mapChildren_eq hz
    obtain ⟨f', hf', htype, hemb⟩ := Shape.exists_field hgs hf
    exact ⟨f'.type, .embedded hw hf' (hemb.trans he), htype⟩
  | @pointee _ x hv hx hp hi =>
    obtain ⟨w, hw, hm⟩ := h.view ht hu hk hv
    obtain ⟨z, rfl, hz⟩ := View.shape_of_map_eq hm
    obtain ⟨e, rfl, he⟩ := Shape.pointer_of_mapChildren_eq hz
    have hta : Seen g query a := .component ht hv (List.mem_singleton_self a)
    have hue : Seen g query e := .component hu hw (List.mem_singleton_self e)
    obtain ⟨y, hy, hxy⟩ := h.view hta hue he hx
    have hpy := congrArg View.isPointer hxy
    rw [View.isPointer_map, View.isPointer_map, hp] at hpy
    exact ⟨e, .pointee hw hy hpy (h.isInterface hta hue he hi), he⟩

end Coherent
end Promotion
end TypeIdentity
