import TypeIdentity.Proofs.Promotion.Coherence

/-! # Shortcuts

A path that meets a type again can be cut short.  What is cut out of a path in a coherent graph has
a named type in it, as unnamed types are larger than what they lead to; so every path has a simple
one beside it that ends at the same type and crosses fewer named types.
-/
namespace TypeIdentity.Promotion
variable {α : Type} {g : TypeGraph α} {query : α}

/-- No type on the path is the same as an earlier one. -/
def Simple (g : TypeGraph α) (path : Path α) : Prop :=
  path.Pairwise fun s r => g.same r.type s.type = false

theorem simple_cons {s : Step α} {path : Path α} :
    Simple g (s :: path) ↔ path.visits g s.type = false ∧ Simple g path := by
  rw [Simple, List.pairwise_cons, Path.visits, List.any_eq_false]
  simp only [Bool.not_eq_true]
  rfl

namespace Trail
variable {choices : List Nat} {path : Path α} {s : Step α}

theorem view (h : Trail g query choices (s :: path)) :
    ∃ v, g.view s.type = .ok v ∧ s = stepOf s.type v := by
  cases h with
  | start hv => exact ⟨_, hv, rfl⟩
  | hop _ _ hv => exact ⟨_, hv, rfl⟩

theorem seen_hop {t u : α} {i : Nat} (h : Seen g query t) (hh : Hop g t i u) : Seen g query u := by
  cases hh with
  | underlying hv => exact .underlying h hv
  | embedded hv hf _ => exact .component h hv (List.mem_map_of_mem (List.mem_of_getElem? hf))
  | pointee hv _ _ _ => exact .component h hv (List.mem_singleton_self u)

theorem seen (h : Trail g query choices (s :: path)) : Seen g query s.type := by
  generalize hp : s :: path = p at h
  induction h generalizing s path with
  | start hv =>
    obtain ⟨rfl, -⟩ := List.cons.inj hp
    exact .query
  | hop _ hh _ ih =>
    obtain ⟨rfl, -⟩ := List.cons.inj hp
    exact seen_hop (ih rfl) hh

theorem tail {skipped : Path α} (h : Trail g query choices (skipped ++ s :: path)) :
    ∃ choices', Trail g query choices' (s :: path) := by
  induction skipped generalizing choices with
  | nil => exact ⟨choices, h⟩
  | cons r skipped ih =>
    generalize hp : r :: skipped ++ s :: path = p at h
    cases h with
    | start => simp at hp
    | hop h _ _ =>
      obtain ⟨-, hrest⟩ := List.cons.inj hp
      rw [← hrest] at h
      exact ih h

end Trail

theorem crossings_append (skipped path : Path α) :
    Path.crossings (skipped ++ path) = Path.crossings skipped + Path.crossings path :=
  List.countP_append

theorem crossings_cons (s : Step α) (path : Path α) :
    Path.crossings (s :: path) = Path.crossings path + if s.isNamed then 1 else 0 :=
  List.countP_cons

section Shortcuts
variable {key : α → α} {rank : α → Nat} {choices : List Nat} {path : Path α} {s : Step α}

theorem rank_lt_of_hop (hc : Coherent g query key rank) {t u : α} {v : View α} {i : Nat}
    (hv : g.view t = .ok v) (hn : v.isNamed = false) (hh : Hop g t i u) :
    rank (key u) < rank (key t) := by
  cases hh with
  | underlying hv' =>
    obtain rfl := Except.ok.inj (hv.symm.trans hv')
    cases hn
  | embedded hv' hf _ =>
    exact hc.rank_lt t _ hv' _ (List.mem_map_of_mem (List.mem_of_getElem? hf))
  | pointee hv' _ _ _ => exact hc.rank_lt t _ hv' u (List.mem_singleton_self u)

/-- On a part of a path without named types the types get smaller. -/
theorem rank_lt_of_unnamed (hc : Coherent g query key rank) {skipped : Path α} {r : Step α}
    (h : Trail g query choices (s :: (skipped ++ r :: path))) (hr : r.isNamed = false)
    (hn : Path.crossings skipped = 0) : rank (key s.type) < rank (key r.type) := by
  induction skipped generalizing s choices with
  | nil =>
    cases h with
    | hop h hh _ =>
      obtain ⟨w, hw, he⟩ := h.view
      rw [he] at hr
      exact rank_lt_of_hop hc hw hr hh
  | cons y skipped ih =>
    cases h with
    | hop h hh _ =>
      rw [crossings_cons] at hn
      have hy : y.isNamed = false := by
        cases hy : y.isNamed with
        | false => rfl
        | true => simp [hy] at hn
      obtain ⟨w, hw, he⟩ := h.view
      rw [he] at hy
      have hlt := rank_lt_of_hop hc hw hy hh
      exact Nat.lt_trans hlt (ih h (Nat.eq_zero_of_add_eq_zero_right hn))

theorem isNamed_eq (hc : Coherent g query key rank) {t u : α} {v w : View α}
    (ht : Seen g query t) (hu : Seen g query u) (hk : key u = key t) (hv : g.view t = .ok v)
    (hw : g.view u = .ok w) : w.isNamed = v.isNamed := by
  obtain ⟨w', hw', hm⟩ := hc.view ht hu hk hv
  obtain rfl := Except.ok.inj (hw.symm.trans hw')
  have hflag := congrArg View.isNamed hm
  rwa [View.isNamed_map, View.isNamed_map] at hflag

/-- When a path comes back to a type, its beginning up to the first visit is simpler. -/
theorem exists_shortcut (hc : Coherent g query key rank) (h : Trail g query choices (s :: path))
    (hs : Simple g (s :: path)) {t : α} {v : View α} {i : Nat} (hh : Hop g s.type i t)
    (hv : g.view t = .ok v) (hvisit : Path.visits g (s :: path) t = true) :
    ∃ choices' s' path', Trail g query choices' (s' :: path') ∧ Simple g (s' :: path') ∧
      key s'.type = key t ∧
      Path.crossings (s' :: path') < Path.crossings (stepOf t v :: s :: path) := by
  obtain ⟨r, hr, hsame⟩ := List.any_eq_true.1 hvisit
  obtain ⟨skipped, rest, heq⟩ := List.append_of_mem hr
  have hkey : key r.type = key t := (hc.same_iff r.type t).1 hsame
  have hlong : Trail g query (i :: choices) (stepOf t v :: s :: path) := h.hop hh hv
  rw [heq] at h hs hlong
  obtain ⟨choices', hshort⟩ := h.tail
  refine ⟨choices', r, rest, hshort, (List.pairwise_append.1 hs).2.1, hkey, ?_⟩
  obtain ⟨w, hw, hrw⟩ := hshort.view
  have hflag := isNamed_eq hc hlong.seen hshort.seen hkey hv hw
  rw [heq, crossings_cons (stepOf t v), crossings_append]
  cases hn : v.isNamed with
  | true =>
    simp only [stepOf, hn, if_true]
    omega
  | false =>
    rcases Nat.eq_zero_or_pos (Path.crossings skipped) with hzero | hpos
    · have hr : r.isNamed = false := by
        rw [hrw]
        exact hflag.trans hn
      have hlt : rank (key t) < rank (key r.type) := rank_lt_of_unnamed hc hlong hr hzero
      rw [hkey] at hlt
      exact absurd hlt (Nat.lt_irrefl _)
    · omega

/-- Every path is simple, or a simple one leads to the same type across fewer named types. -/
theorem simple_or_exists (hc : Coherent g query key rank) (h : Trail g query choices (s :: path)) :
    Simple g (s :: path) ∨ ∃ choices' s' path', Trail g query choices' (s' :: path') ∧
      Simple g (s' :: path') ∧ key s'.type = key s.type ∧
      Path.crossings (s' :: path') < Path.crossings (s :: path) := by
  generalize hp : s :: path = p at h
  induction h generalizing s path with
  | start hv =>
    left
    exact List.pairwise_singleton _ _
  | @hop choices p r i t v h hh hv ih =>
    obtain ⟨rfl, rfl⟩ := List.cons.inj hp
    by_cases hs : Simple g (r :: p)
    · cases hvisit : Path.visits g (r :: p) t with
      | true => exact .inr (exists_shortcut hc h hs hh hv hvisit)
      | false => exact .inl (simple_cons.2 ⟨hvisit, hs⟩)
    · obtain ⟨choices', s', path', h', hs', hk, hlt⟩ := (ih rfl).resolve_left hs
      obtain ⟨u, hu, hku⟩ := hc.hop h.seen h'.seen hk hh
      obtain ⟨w, hw, hm⟩ := hc.view (Trail.seen_hop h.seen hh) (Trail.seen_hop h'.seen hu) hku hv
      have hflag := isNamed_eq hc (Trail.seen_hop h.seen hh) (Trail.seen_hop h'.seen hu) hku hv hw
      have hcross : Path.crossings (stepOf u w :: s' :: path') <
          Path.crossings (stepOf t v :: r :: p) := by
        rw [crossings_cons, crossings_cons (stepOf t v)]
        simp only [stepOf, hflag]
        exact Nat.add_lt_add_right hlt _
      right
      cases hvisit : Path.visits g (s' :: path') u with
      | true =>
        obtain ⟨c'', s'', p'', h'', hs'', hk'', hlt'⟩ := exists_shortcut hc h' hs' hu hw hvisit
        exact ⟨c'', s'', p'', h'', hs'', hk''.trans hku, Nat.lt_trans hlt' hcross⟩
      | false =>
        exact ⟨_, _, _, h'.hop hu hw, simple_cons.2 ⟨hvisit, hs'⟩, hku, hcross⟩

end Shortcuts
end TypeIdentity.Promotion
