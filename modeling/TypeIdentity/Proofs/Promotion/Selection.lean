import TypeIdentity.Proofs.Promotion.MethodSets
import TypeIdentity.Proofs.Promotion.Searches

/-! # Selection among members

A selector goes through embedded fields, and of all fields and methods of a name it selects the one
at the least depth, if no other is as shallow.  A method set comes down to this rule for the names
that no field on a path has.
-/
namespace TypeIdentity
variable {α : Type} {g : TypeGraph α} {query : α}

/-- What a selector may name. -/
inductive Member (α : Type)
  | field (f : Field α)
  | method (m : DeclaredMethod α)

def Member.name : Member α → String
  | field f => f.name
  | method m => m.name

namespace View

/-- The fields of a struct, and the methods that other types offer. -/
def members (v : View α) : List (Member α) := v.fields.map .field ++ v.offered.map .method

theorem members_cases (v : View α) :
    v.members = v.fields.map .field ∧ v.offered = [] ∨
      v.members = v.offered.map .method ∧ v.fields = [] := by
  rcases v with (_ | _ | _ | _ | _ | _ | fs | _ | _) | n
  case shape.struct => exact .inl ⟨List.append_nil _, rfl⟩
  all_goals exact .inr ⟨rfl, rfl⟩

theorem getElem?_members {v : View α} {i : Nat} {k : Member α} : v.members[i]? = some k ↔
    (∃ f, v.fields[i]? = some f ∧ k = .field f) ∨ ∃ m, v.offered[i]? = some m ∧ k = .method m := by
  rcases v.members_cases with ⟨h, hnone⟩ | ⟨h, hnone⟩
  · simp only [h, hnone, List.getElem?_map, Option.map_eq_some_iff, List.getElem?_nil, reduceCtorEq,
      false_and, exists_false, or_false, eq_comm (b := k)]
  · simp only [h, hnone, List.getElem?_map, Option.map_eq_some_iff, List.getElem?_nil, reduceCtorEq,
      false_and, exists_false, false_or, eq_comm (b := k)]

theorem isPointer_of_members {v : View α} {i : Nat} {k : Member α} (h : v.members[i]? = some k) :
    v.isPointer = false := by
  rcases v with (_ | _ | _ | _ | _ | _ | _ | _ | e) | n
  case shape.pointer => cases h
  all_goals rfl

end View

namespace Promotion
variable {choices : List Nat} {path : Path α} {s : Step α} {v : View α} {name : String}
  {site : List Nat × Nat}

/-! ## Depths of selectors -/

/-- Number of embedded fields entered on a path, one for each step from a struct. -/
def Path.embeddings (path : Path α) : Nat := path.tail.countP fun s => !s.isNamed && !s.isPointer

theorem embeddings_cons (r s : Step α) (path : Path α) : Path.embeddings (r :: s :: path) =
    Path.embeddings (s :: path) + if !s.isNamed && !s.isPointer then 1 else 0 :=
  List.countP_cons

/-- No pointer on a path is the underlying type of the named type before it. -/
def Path.Plain (path : Path α) : Prop :=
  path.IsChain fun s r => ¬(s.isPointer = true ∧ r.isNamed = true)

theorem plain_cons {r s : Step α} : Path.Plain (r :: s :: path) ↔
    ¬(r.isPointer = true ∧ s.isNamed = true) ∧ Path.Plain (s :: path) :=
  List.isChain_cons_cons

/-- Embedded fields have named types or pointers to them, and no underlying type is named. -/
structure Ordinary (g : TypeGraph α) (query : α) : Prop where
  embedded {t : α} {fs : List (Field α)} {f : Field α} (ht : Seen g query t)
    (hv : g.view t = .ok (.shape (.struct fs))) (hf : f ∈ fs) (he : f.embedded = true) :
    ownNamed g f.type = 1
  underlying {t : α} {n : NamedView α} {v : View α} (ht : Seen g query t)
    (hv : g.view t = .ok (.named n)) (hu : g.view n.underlying = .ok v) : v.isNamed = false

/-- How many named types come right after the last type of a path, when that type is a pointer. -/
def ahead (g : TypeGraph α) (s : Step α) : Nat := if s.isPointer then ownNamed g s.type else 0

theorem ownNamed_of_view {t : α} (hv : g.view t = .ok v) :
    ownNamed g t = (if (stepOf t v).isNamed then 1 else 0) + ahead g (stepOf t v) := by
  unfold ahead
  rcases v with (_ | _ | _ | _ | _ | _ | _ | _ | e) | n
  case shape.pointer => exact (Nat.zero_add _).symm
  all_goals
    unfold ownNamed
    rw [hv]
    rfl

theorem ownNamed_pointer {t e : α} {w : View α} (hv : g.view t = .ok (.shape (.pointer e)))
    (he : g.view e = .ok w) : ownNamed g t = if w.isNamed then 1 else 0 := by
  unfold ownNamed
  rw [hv]
  dsimp only
  rw [he]
  cases w <;> rfl

theorem ahead_of_not_pointer {t : α} (h : v.isPointer = false) : ahead g (stepOf t v) = 0 :=
  if_neg (Bool.eq_false_iff.1 h)

/-- A step from a struct leads to one named type, if not to a pointer to one. -/
theorem ahead_hop (ho : Ordinary g query) {t u : α} {v w : View α} {i : Nat} (ht : Seen g query t)
    (hh : Hop g t i u) (hv : g.view t = .ok v) (hw : g.view u = .ok w)
    (hdefined : ¬(w.isPointer = true ∧ v.isNamed = true)) :
    (if w.isNamed then 1 else 0) + ahead g (stepOf u w) =
      ahead g (stepOf t v) + if !v.isNamed && !v.isPointer then 1 else 0 := by
  cases hh with
  | underlying hv' =>
    obtain rfl := Except.ok.inj (hv.symm.trans hv')
    have hpointer : w.isPointer = false := Bool.eq_false_iff.2 fun hp => hdefined ⟨hp, rfl⟩
    rw [ho.underlying ht hv hw, ahead_of_not_pointer hpointer]
    rfl
  | embedded hv' hf he =>
    obtain rfl := Except.ok.inj (hv.symm.trans hv')
    exact (ownNamed_of_view hw).symm.trans (ho.embedded ht hv (List.mem_of_getElem? hf) he)
  | pointee hv' hw' hpointer _ =>
    obtain rfl := Except.ok.inj (hv.symm.trans hv')
    obtain rfl := Except.ok.inj (hw.symm.trans hw')
    rw [ahead_of_not_pointer hpointer]
    exact (ownNamed_pointer hv hw).symm

/-- Each embedded field that is entered leads to one named type. -/
theorem Trail.crossings_add_ahead (ho : Ordinary g query) (h : Trail g query choices (s :: path))
    (hp : Path.Plain (s :: path)) : Path.crossings (s :: path) + ahead g s =
      ownNamed g query + Path.embeddings (s :: path) := by
  generalize hl : s :: path = l at h
  induction h generalizing s path with
  | @start v hv =>
    obtain ⟨rfl, rfl⟩ := List.cons.inj hl
    have hcross := crossings_cons (stepOf query v) []
    have hown := ownNamed_of_view hv
    have hnone : Path.crossings ([] : Path α) = 0 := rfl
    have hzero : Path.embeddings [stepOf query v] = 0 := rfl
    omega
  | @hop _ p r i t w h hh hv ih =>
    obtain ⟨rfl, rfl⟩ := List.cons.inj hl
    obtain ⟨hdefined, hp⟩ := plain_cons.1 hp
    obtain ⟨u, hu, hr⟩ := h.view
    have hbefore := ih hp rfl
    have hcross : Path.crossings (stepOf t w :: r :: p) =
        Path.crossings (r :: p) + if w.isNamed then 1 else 0 := crossings_cons ..
    have hemb : Path.embeddings (stepOf t w :: r :: p) =
        Path.embeddings (r :: p) + if !u.isNamed && !u.isPointer then 1 else 0 := by
      rw [embeddings_cons, hr]
      rfl
    have hstep : (if w.isNamed then 1 else 0) + ahead g (stepOf t w) =
        ahead g r + if !u.isNamed && !u.isPointer then 1 else 0 := by
      rw [hr] at hdefined ⊢
      exact ahead_hop ho h.seen hh hu hv hdefined
    omega

/-- Paths are all in a list that has the shortest one and is closed under steps. -/
theorem Trail.mem {l : List (List Nat × Path α)} (h : Trail g query choices path)
    (hstart : ∀ v, g.view query = .ok v → ([], [stepOf query v]) ∈ l)
    (hhop : ∀ choices s path i u v, (choices, s :: path) ∈ l → Hop g s.type i u →
      g.view u = .ok v → (i :: choices, stepOf u v :: s :: path) ∈ l) : (choices, path) ∈ l := by
  induction h with
  | start hv => exact hstart _ hv
  | hop _ hh hv ih => exact hhop _ _ _ _ _ _ ih hh hv

/-! ## Members that selectors reach -/

/-- A member as a selector reaches it. -/
structure Selectable (α : Type) where
  member : Member α
  /-- Number of named types on the way, but for those at the beginning. -/
  depth : Nat
  embeddings : Nat
  throughPointer : Bool

/-- A member at the end of a path that no defined pointer is on. -/
inductive Bears (g : TypeGraph α) (query : α) : List Nat × Nat → Selectable α → Prop
  | intro {choices : List Nat} {path : Path α} {s : Step α} {v : View α} {i : Nat} {k : Member α}
      (ht : Trail g query choices (s :: path)) (hp : Path.Plain (s :: path))
      (hv : g.view s.type = .ok v) (hk : v.members[i]? = some k) :
      Bears g query (choices, i) ⟨k, Path.crossings (s :: path) - ownNamed g query,
        Path.embeddings (s :: path), Path.throughPointer (s :: path)⟩

/-- Of all members of a name, a method lies less deep than all others, and it has the pointer that
it needs. -/
def Selects (g : TypeGraph α) (query : α) (depth : Selectable α → Nat) (name : String) : Prop :=
  ∃ site c m, Bears g query site c ∧ c.member = .method m ∧ m.name = name ∧
    (m.pointerReceiver = true → c.throughPointer = true) ∧
    ∀ site' c', Bears g query site' c' → c'.member.name = name →
      depth c ≤ depth c' ∧ (depth c' = depth c → site' = site)

/-- No field of a name is reached. -/
def Fieldless (g : TypeGraph α) (query : α) (name : String) : Prop :=
  ∀ site c f, Bears g query site c → c.member = .field f → f.name ≠ name

/-- No member of a name is reached through a defined pointer. -/
def Plainly (g : TypeGraph α) (query : α) (name : String) : Prop :=
  ∀ choices s path v, Trail g query choices (s :: path) → g.view s.type = .ok v →
    (∃ k ∈ v.members, k.name = name) → Path.Plain (s :: path)

theorem plain_of_trail (hp : ∀ t n v, Seen g query t → g.view t = .ok (.named n) →
    g.view n.underlying = .ok v → v.isPointer = false) (h : Trail g query choices path) :
    Path.Plain path := by
  induction h with
  | start => exact List.IsChain.singleton _
  | @hop _ p r i t w h hh hw ih =>
    refine plain_cons.2 ⟨?_, ih⟩
    rintro ⟨hpointer, hnamed⟩
    obtain ⟨u, hu, hr⟩ := h.view
    rw [hr] at hnamed
    cases hh with
    | underlying hv =>
      have hno : w.isPointer = false := hp _ _ _ h.seen hv hw
      rw [show w.isPointer = true from hpointer] at hno
      cases hno
    | embedded hv _ _ =>
      obtain rfl := Except.ok.inj (hu.symm.trans hv)
      cases hnamed
    | pointee hv _ _ _ =>
      obtain rfl := Except.ok.inj (hu.symm.trans hv)
      cases hnamed

/-- Where no underlying type is a pointer, no member is reached through a defined pointer. -/
theorem plainly_of_seen (hp : ∀ t n v, Seen g query t → g.view t = .ok (.named n) →
    g.view n.underlying = .ok v → v.isPointer = false) (name : String) : Plainly g query name :=
  fun _ _ _ _ ht _ _ => plain_of_trail hp ht

theorem Bears.depth_eq (ho : Ordinary g query) {c : Selectable α} (h : Bears g query site c) :
    c.depth = c.embeddings := by
  obtain ⟨ht, hp, hv, hk⟩ := h
  obtain ⟨u, hu, hs⟩ := ht.view
  obtain rfl := Except.ok.inj (hv.symm.trans hu)
  have hcrossings := ht.crossings_add_ahead ho hp
  rw [hs, ahead_of_not_pointer (View.isPointer_of_members hk), ← hs] at hcrossings
  change Path.crossings _ - ownNamed g query = Path.embeddings _
  omega

theorem Selects.of_eq {depth depth' : Selectable α → Nat}
    (h : ∀ site c, Bears g query site c → depth c = depth' c) (hs : Selects g query depth name) :
    Selects g query depth' name := by
  obtain ⟨site, c, m, hb, hk, hn, hneeds, hall⟩ := hs
  refine ⟨site, c, m, hb, hk, hn, hneeds, fun site' c' hb' hn' => ?_⟩
  rw [← h site c hb, ← h site' c' hb']
  exact hall site' c' hb' hn'

theorem Ordinary.selects_iff (ho : Ordinary g query) :
    Selects g query (·.depth) name ↔ Selects g query (·.embeddings) name :=
  ⟨.of_eq fun _ _ hb => hb.depth_eq ho, .of_eq fun _ _ hb => (hb.depth_eq ho).symm⟩

/-! ## Method sets -/

theorem bears_of_offers {c : Candidate α} (hp : Plainly g query c.method.name)
    (h : Offers g query site c) :
    ∃ k, Bears g query site ⟨.method c.method, c.depth, k, c.throughPointer⟩ := by
  obtain ⟨ht, hv, hm, he⟩ := h
  have hk := View.getElem?_members.2 (.inr ⟨_, hm, rfl⟩)
  exact ⟨_, .intro ht (hp _ _ _ _ ht hv ⟨_, List.mem_of_getElem? hk, rfl⟩) hv hk⟩

theorem offers_of_bears {c : Selectable α} {m : DeclaredMethod α} (h : Bears g query site c)
    (hm : c.member = .method m) (he : isExported m.name = true) :
    Offers g query site ⟨m, c.depth, c.throughPointer⟩ := by
  obtain ⟨ht, hp, hv, hk⟩ := h
  obtain ⟨f, -, rfl⟩ | ⟨m', hm', rfl⟩ := View.getElem?_members.1 hk
  · cases hm
  · cases hm
    exact .intro ht hv hm' he

theorem fieldless_iff (hp : Plainly g query name) : Fieldless g query name ↔
    ∀ choices s path v, Trail g query choices (s :: path) → g.view s.type = .ok v →
      name ∉ v.fieldNames := by
  constructor
  · intro h choices s path v ht hv hm
    rw [View.fieldNames_eq] at hm
    obtain ⟨f, hf, rfl⟩ := List.mem_map.1 hm
    obtain ⟨i, hi⟩ := List.mem_iff_getElem?.1 hf
    have hk := View.getElem?_members.2 (.inl ⟨f, hi, rfl⟩)
    have hplain := hp _ _ _ _ ht hv ⟨_, List.mem_of_getElem? hk, rfl⟩
    exact h _ _ f (.intro ht hplain hv hk) rfl rfl
  · rintro h site c f ⟨ht, hplain, hv, hk⟩ hc rfl
    obtain ⟨f', hf, rfl⟩ | ⟨m, -, rfl⟩ := View.getElem?_members.1 hk
    · cases hc
      refine h _ _ _ _ ht hv ?_
      rw [View.fieldNames_eq]
      exact List.mem_map_of_mem (List.mem_of_getElem? hf)
    · cases hc

/-- Where no member of a name is behind a defined pointer, the name is in the method set exactly
when no field of the name is reached and a method is selected. -/
theorem exists_promoted_iff {key : α → α} {rank : α → Nat} (hc : Coherent g query key rank)
    {limit : Nat} {result : List (Promoted α)} (h : methods g limit query = .ok result)
    (hp : Plainly g query name) : (∃ p ∈ result, p.method.name = name) ↔
      isExported name = true ∧ Fieldless g query name ∧
        Selects g query (·.depth) name := by
  constructor
  · rintro ⟨p, hm, rfl⟩
    obtain ⟨hfields, site, c, hs, hneeds, rfl⟩ := (mem_methods hc h p).1 hm
    have hfieldless := (fieldless_iff hp).2 hfields
    have hexported : isExported c.method.name = true := by
      obtain ⟨_, _, _, he⟩ := hs.offers
      exact he
    refine ⟨hexported, hfieldless, ?_⟩
    obtain ⟨k, hb⟩ := bears_of_offers hp hs.offers
    refine ⟨site, _, c.method, hb, rfl, rfl, hneeds, fun site' c' hb' hn => ?_⟩
    cases hk : c'.member with
    | field f =>
      rw [hk] at hn
      exact absurd hn (hfieldless _ _ f hb' hk)
    | method m =>
      rw [hk] at hn
      have he : isExported m.name = true := (congrArg isExported hn).trans hexported
      have ho := offers_of_bears hb' hk he
      exact ⟨hs.depth_le _ _ ho hn, hs.site_eq _ _ ho hn⟩
  · rintro ⟨hexported, hfieldless, site, c, m, hb, hk, rfl, hneeds, hall⟩
    have hs : Shallowest g query site ⟨m, c.depth, c.throughPointer⟩ := by
      refine ⟨offers_of_bears hb hk hexported, fun site' c' ho hn => ?_, fun site' c' ho hn => ?_⟩
      · obtain ⟨_, hb'⟩ := bears_of_offers (hn ▸ hp) ho
        exact (hall _ _ hb' hn).1
      · obtain ⟨_, hb'⟩ := bears_of_offers (hn ▸ hp) ho
        exact (hall _ _ hb' hn).2
    have hfields := (fieldless_iff hp).1 hfieldless
    exact ⟨⟨m, c.depth⟩, (mem_methods hc h _).2 ⟨hfields, site, _, hs, hneeds, rfl⟩, rfl⟩

end Promotion
end TypeIdentity
