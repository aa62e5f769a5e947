import TypeIdentity.Proofs.Guarantee
import TypeIdentity.Proofs.Shapes
import TypeIdentity.StaticType.Substitution
import Mathlib.Data.List.Basic
import Mathlib.Tactic.Choose

/-! # What substitution does

Substitution relates a skeleton to the type that it becomes, with one case for each kind of node.
From this relation follow that substitutions can be composed, when exactly one succeeds, and that
no parameter is left by it.
-/
namespace TypeIdentity

theorem Decl.isGeneric_iff {d : Decl} : d.isGeneric = true ↔ d.arity ≠ 0 := by
  simp [Decl.isGeneric, Decl.arity]

namespace StaticType

/-- What comes of a type when its parameters are replaced. -/
inductive Becomes (args : List StaticType) : StaticType → StaticType → Prop
  | shape (z : Shape (StaticType × StaticType)) (hc : ∀ c ∈ z.children, Becomes args c.1 c.2) :
      Becomes args (.shape (z.mapChildren Prod.fst)) (.shape (z.mapChildren Prod.snd))
  | param {index : UInt64} {name : String} {t : StaticType} (ht : args[index.toNat]? = some t) :
      Becomes args (.param index name) t
  /-- A reference to a type that is not generic stays as it is, with all that it carries. -/
  | plain {d : Decl} {bound : List StaticType} (hg : d.isGeneric = false) :
      Becomes args (.named d bound) (.named d bound)
  /-- A generic type without arguments takes over all that there are. -/
  | unbound {d : Decl} (hg : d.isGeneric = true) (ha : args.length = d.arity) :
      Becomes args (.named d []) (.named d args)
  | bound {d : Decl} (zs : List (StaticType × StaticType)) (hg : d.isGeneric = true)
      (hne : zs ≠ []) (ha : zs.length = d.arity) (hc : ∀ c ∈ zs, Becomes args c.1 c.2) :
      Becomes args (.named d (zs.map Prod.fst)) (.named d (zs.map Prod.snd))
  | tuple (zs : List (StaticType × StaticType)) (hc : ∀ c ∈ zs, Becomes args c.1 c.2) :
      Becomes args (.tuple (zs.map Prod.fst)) (.tuple (zs.map Prod.snd))
  | union (zs : List (StaticType × StaticType)) (hc : ∀ c ∈ zs, Becomes args c.1 c.2) :
      Becomes args (.union (zs.map Prod.fst)) (.union (zs.map Prod.snd))

/-- The components that substitution enters. -/
def entered : StaticType → List StaticType
  | named d bound => if d.isGeneric then bound else []
  | t => t.children

/-- The parts of a type that substitution meets: all but what is inside the arguments of references
to types that are not generic. -/
inductive Meets (root : StaticType) : StaticType → Prop
  | self : Meets root root
  | inside {t c : StaticType} (ht : Meets root t) (hc : c ∈ t.entered) : Meets root c

/-- What a part of a type asks of the number of arguments: a parameter is below it, and a generic
type has as many arguments as it has parameters, its own ones or those that it takes over. -/
def Suits (n : Nat) : StaticType → Prop
  | param index _ => index.toNat < n
  | named d bound =>
    d.isGeneric = true → (bound ≠ [] → bound.length = d.arity) ∧ (bound = [] → d.arity = n)
  | _ => True

/-- How a part that does not suit the number of arguments is refused. -/
inductive Refuses (n : Nat) : StaticType → Error → Prop
  | param {index : UInt64} (name : String) (h : n ≤ index.toNat) (hlast : index ≠ lastIndex) :
      Refuses n (.param index name) (.arity ("type parameter " ++ name) (index.toNat + 1) n)
  /-- The number of arguments that the last index asks for is no word. -/
  | last (name : String) (h : n ≤ lastIndex.toNat) : Refuses n (.param lastIndex name) .overflow
  | unbound {d : Decl} (hg : d.isGeneric = true) (h : n ≠ d.arity) :
      Refuses n (.named d []) (arityError d n)
  | bound {d : Decl} {bound : List StaticType} (hg : d.isGeneric = true) (hne : bound ≠ [])
      (h : bound.length ≠ d.arity) : Refuses n (.named d bound) (arityError d bound.length)

variable {s t m root : StaticType} {args inner inner' outer : List StaticType} {n : Nat} {e : Error}

theorem Refuses.not_suits (h : Refuses n t e) : ¬t.Suits n := by
  intro hs
  cases h with
  | param _ h | last _ h => exact absurd hs (Nat.not_lt.2 h)
  | unbound hg h => exact h ((hs hg).2 rfl).symm
  | bound hg hne h => exact h ((hs hg).1 hne)

/-- A part that is refused has the wrong number of arguments, unless it is a parameter at the last
index. -/
theorem Refuses.arity_or_last (h : Refuses n t e) :
    (∃ subject expected actual, e = .arity subject expected actual ∧ expected ≠ actual) ∨
      e = .overflow ∧ ∃ name, t = .param lastIndex name := by
  cases h with
  | param name h => exact .inl ⟨_, _, _, rfl, by omega⟩
  | last name => exact .inr ⟨rfl, name, rfl⟩
  | unbound _ h => exact .inl ⟨_, _, _, rfl, h.symm⟩
  | bound _ _ h => exact .inl ⟨_, _, _, rfl, h.symm⟩

/-! ## The relation and the function -/

/-- A part that is met becomes another type, or else some part that is met is refused. -/
theorem failing_replaceParams (hs : root.Meets s) :
    (Guarantee.failing fun e => ∃ t, root.Meets t ∧ Refuses args.length t e).ensures
      (s.replaceParams args) (Becomes args s) := by
  let g := Guarantee.failing fun e => ∃ t, root.Meets t ∧ Refuses args.length t e
  have hrefused {t u : StaticType} {e : Error} (ht : root.Meets t)
      (he : Refuses args.length t e) : g.ensures (.error e) (Becomes args u) :=
    ⟨fun _ h => (nomatch h), fun _ h => ⟨t, ht, Except.error.inj h ▸ he⟩⟩
  have hlist {items : List StaticType}
      (h : ∀ c ∈ items, g.ensures (c.replaceParams args) (Becomes args c)) :
      g.ensures (items.attach.mapM fun c => c.1.replaceParams args) fun ts =>
        ∃ zs : List (StaticType × StaticType), zs.map Prod.fst = items ∧ zs.map Prod.snd = ts ∧
          ∀ z ∈ zs, Becomes args z.1 z.2 := by
    rw [attach_mapM]
    exact g.mapM_pairs h
  induction s with
  | shape s ih =>
    rw [replaceParams, Shape.attach_traverse]
    refine g.bind (g.traverse fun c hc => ih c hc (hs.inside hc)) fun s' hs' => ?_
    obtain ⟨z, rfl, rfl, hz⟩ := hs'
    exact g.pure (.shape z hz)
  | param index name =>
    rw [replaceParams]
    cases hi : args[index.toNat]? with
    | some t => exact g.pure (.param hi)
    | none =>
      have hn := List.getElem?_eq_none_iff.1 hi
      by_cases hlast : index = lastIndex
      · subst hlast
        rw [required_last]
        exact hrefused hs (.last name hn)
      · rw [required_eq hlast]
        exact hrefused hs (.param name hn hlast)
  | named d bound ih =>
    rw [replaceParams]
    by_cases hg : d.isGeneric = true
    · rw [if_neg (by simp [hg])]
      by_cases hb : bound = []
      · subst hb
        rw [if_pos rfl]
        by_cases ha : args.length = d.arity
        · rw [if_pos ha]
          exact g.pure (.unbound hg ha)
        · rw [if_neg ha]
          exact hrefused hs (.unbound hg ha)
      · rw [if_neg hb]
        by_cases ha : bound.length = d.arity
        · rw [if_pos ha]
          have hin : ∀ c ∈ bound, root.Meets c := fun c hc =>
            hs.inside (by rwa [entered, if_pos hg])
          refine g.bind (hlist fun c hc => ih c hc (hin c hc)) fun ts hts => ?_
          obtain ⟨zs, rfl, rfl, hz⟩ := hts
          rw [List.length_map] at ha
          exact g.pure (.bound zs hg (fun h => hb (by rw [h, List.map_nil])) ha hz)
        · rw [if_neg ha]
          exact hrefused hs (.bound hg hb ha)
    · have hg : d.isGeneric = false := by simpa using hg
      rw [if_pos (by simp [hg])]
      exact g.pure (.plain hg)
  | tuple items ih =>
    rw [replaceParams]
    refine g.bind (hlist fun c hc => ih c hc (hs.inside hc)) fun ts hts => ?_
    obtain ⟨zs, rfl, rfl, hz⟩ := hts
    exact g.pure (.tuple zs hz)
  | union items ih =>
    rw [replaceParams]
    refine g.bind (hlist fun c hc => ih c hc (hs.inside hc)) fun ts hts => ?_
    obtain ⟨zs, rfl, rfl, hz⟩ := hts
    exact g.pure (.union zs hz)

theorem replaceParams_of_becomes (h : Becomes args s t) : s.replaceParams args = .ok t := by
  have hlist {zs : List (StaticType × StaticType)}
      (h : ∀ c ∈ zs, c.1.replaceParams args = .ok c.2) :
      (zs.map Prod.fst).attach.mapM (fun c => c.1.replaceParams args) =
        .ok (zs.map Prod.snd) := by
    rw [attach_mapM, List.mapM_map]
    exact Outcome.except.mapM h
  induction h with
  | shape z _ ih =>
    have hwalk : (z.mapChildren Prod.fst).traverse (replaceParams args) =
        .ok (z.mapChildren Prod.snd) := by
      rw [Shape.traverse_mapChildren]
      exact Outcome.except.traverse ih
    rw [replaceParams, Shape.attach_traverse, hwalk]
    rfl
  | param ht => rw [replaceParams, ht]
  | plain hg => rw [replaceParams, if_pos (by simp [hg])]
  | unbound hg ha => rw [replaceParams, if_neg (by simp [hg]), if_pos rfl, if_pos ha]
  | bound zs hg hne ha _ ih =>
    rw [replaceParams, if_neg (by simp [hg]), if_neg (by simpa using hne),
      if_pos (by rwa [List.length_map]), hlist ih]
    rfl
  | tuple zs _ ih | union zs _ ih =>
    rw [replaceParams, hlist ih]
    rfl

theorem replaceParams_eq_ok : s.replaceParams args = .ok t ↔ Becomes args s t :=
  ⟨(failing_replaceParams .self).1 t, replaceParams_of_becomes⟩

theorem substitute_nil (s : StaticType) : s.substitute [] = .ok s := rfl

theorem substitute_of_ne_nil (hne : args ≠ []) (s : StaticType) :
    s.substitute args = s.replaceParams args := by
  rw [substitute, if_neg (by simpa using hne)]

theorem substitute_eq_ok (hne : args ≠ []) : s.substitute args = .ok t ↔ Becomes args s t := by
  rw [substitute_of_ne_nil hne, replaceParams_eq_ok]

/-! ## Composition -/

namespace Becomes
variable {α : Type} {p q : α → StaticType}

theorem shape_map {z : Shape α} (h : ∀ c ∈ z.children, Becomes args (p c) (q c)) :
    Becomes args (.shape (z.mapChildren p)) (.shape (z.mapChildren q)) := by
  have hc : ∀ c ∈ (z.mapChildren fun c => (p c, q c)).children, Becomes args c.1 c.2 := by
    intro c hc
    obtain ⟨c, hm, rfl⟩ := Shape.exists_of_mem_children hc
    exact h c hm
  have hpairs := shape _ hc
  simpa only [Shape.mapChildren_mapChildren] using hpairs

theorem bound_map {d : Decl} {zs : List α} (hg : d.isGeneric = true) (hne : zs ≠ [])
    (ha : zs.length = d.arity) (h : ∀ c ∈ zs, Becomes args (p c) (q c)) :
    Becomes args (.named d (zs.map p)) (.named d (zs.map q)) := by
  have hpairs := bound (zs.map fun c => (p c, q c)) hg (by simpa using hne)
    (by rwa [List.length_map]) (List.forall_mem_map.2 h)
  simpa only [List.map_map, Function.comp_def] using hpairs

theorem tuple_map {zs : List α} (h : ∀ c ∈ zs, Becomes args (p c) (q c)) :
    Becomes args (.tuple (zs.map p)) (.tuple (zs.map q)) := by
  have hpairs := tuple (zs.map fun c => (p c, q c)) (List.forall_mem_map.2 h)
  simpa only [List.map_map, Function.comp_def] using hpairs

theorem union_map {zs : List α} (h : ∀ c ∈ zs, Becomes args (p c) (q c)) :
    Becomes args (.union (zs.map p)) (.union (zs.map q)) := by
  have hpairs := union (zs.map fun c => (p c, q c)) (List.forall_mem_map.2 h)
  simpa only [List.map_map, Function.comp_def] using hpairs

/-- Replacing the parameters that are left by a replacement is replacing them in its arguments. -/
theorem comp {zs : List (StaticType × StaticType)} (hz : ∀ c ∈ zs, Becomes outer c.1 c.2)
    (h : Becomes (zs.map Prod.fst) s m) :
    ∃ t, Becomes outer m t ∧ Becomes (zs.map Prod.snd) s t := by
  have : Nonempty StaticType := ⟨.error⟩
  induction h with
  | shape y _ ih =>
    choose! f hafter hwhole using ih
    exact ⟨_, shape_map hafter, shape_map hwhole⟩
  | param ht =>
    rw [List.getElem?_map] at ht
    obtain ⟨c, hc, rfl⟩ := Option.map_eq_some_iff.1 ht
    refine ⟨c.2, hz c (List.mem_of_getElem? hc), param ?_⟩
    rw [List.getElem?_map, hc, Option.map_some]
  | plain hg => exact ⟨_, plain hg, plain hg⟩
  | unbound hg ha =>
    -- the arguments taken over are bound now, and there are some since the type is generic
    have hne : zs ≠ [] := by
      rintro rfl
      exact Decl.isGeneric_iff.1 hg ha.symm
    rw [List.length_map] at ha
    exact ⟨_, bound zs hg hne ha hz, unbound hg (by rwa [List.length_map])⟩
  | bound ys hg hne ha _ ih =>
    choose! f hafter hwhole using ih
    exact ⟨_, bound_map hg hne ha hafter, bound_map hg hne ha hwhole⟩
  | tuple ys _ ih =>
    choose! f hafter hwhole using ih
    exact ⟨_, tuple_map hafter, tuple_map hwhole⟩
  | union ys _ ih =>
    choose! f hafter hwhole using ih
    exact ⟨_, union_map hafter, union_map hwhole⟩

end Becomes

/-- Substituting in what was substituted is substituting in the arguments first: this succeeds if
the two substitutions do, and gives the same type. -/
theorem substitute_substitute (hne : inner ≠ []) (hm : s.substitute inner = .ok m)
    (hi : inner.mapM (fun t => t.substitute outer) = .ok inner') :
    ∃ t, m.substitute outer = .ok t ∧ s.substitute inner' = .ok t := by
  by_cases ho : outer = []
  · subst ho
    have hsame : inner.mapM (fun t => t.substitute []) = .ok (inner.map id) :=
      Outcome.except.mapM fun t _ => substitute_nil t
    rw [hsame, List.map_id] at hi
    exact ⟨m, substitute_nil m, Except.ok.inj hi ▸ hm⟩
  · have hstep : ∀ t ∈ inner, Guarantee.except.ensures (t.substitute outer) (Becomes outer t) :=
      fun t _ u hu => (substitute_eq_ok ho).1 hu
    obtain ⟨zs, rfl, rfl, hz⟩ := Guarantee.except.mapM_pairs hstep inner' hi
    have hne' : zs.map Prod.snd ≠ [] := by simpa using hne
    obtain ⟨t, hafter, hwhole⟩ := ((substitute_eq_ok hne).1 hm).comp hz
    exact ⟨t, (substitute_eq_ok ho).2 hafter, (substitute_eq_ok hne').2 hwhole⟩

def crate : Decl := ⟨1, "lib", "Crate", ["T"]⟩

/-- The maps from a type to crates, which take over the type. -/
def shelf : StaticType := .shape (.map (.param 0 "K") (.named crate []))

/-- The shelf for one type. -/
def shelfOf (t : StaticType) : StaticType := .shape (.map t (.named crate [t]))

theorem becomes_shelf (t : StaticType) : Becomes [t] shelf (shelfOf t) := by
  refine .shape (.map (.param 0 "K", t) (.named crate [], .named crate [t])) fun c hc => ?_
  rcases List.mem_pair.1 hc with rfl | rfl
  · exact .param rfl
  · exact .unbound rfl rfl

/-- The parameter that is left is the second one, though the crate takes one argument. -/
theorem substitute_substitute_shelf :
    let list (t : StaticType) : StaticType := .shape (.slice t)
    let outer : List StaticType := [.shape (.basic .int), .shape (.basic .string)]
    shelf.substitute [list (.param 1 "V")] = .ok (shelfOf (list (.param 1 "V"))) ∧
      (shelfOf (list (.param 1 "V"))).substitute outer =
        .ok (shelfOf (list (.shape (.basic .string)))) := by
  intro list outer
  have hfirst : shelf.substitute [list (.param 1 "V")] = .ok (shelfOf (list (.param 1 "V"))) :=
    (substitute_eq_ok (List.cons_ne_nil _ _)).2 (becomes_shelf _)
  have hitem : Becomes outer (list (.param 1 "V")) (list (.shape (.basic .string))) := by
    refine .shape (.slice (.param 1 "V", .shape (.basic .string))) fun c hc => ?_
    rw [List.mem_singleton.1 hc]
    exact .param rfl
  have hargs : [list (.param 1 "V")].mapM (fun t => t.substitute outer) =
      .ok [list (.shape (.basic .string))] := by
    rw [List.mapM_cons, (substitute_eq_ok (List.cons_ne_nil _ _)).2 hitem]
    rfl
  have hsecond := substitute_substitute (List.cons_ne_nil _ _) hfirst hargs
  obtain ⟨t, ht, hs⟩ := hsecond
  rw [(substitute_eq_ok (List.cons_ne_nil _ _)).2 (becomes_shelf _)] at hs
  exact ⟨hfirst, Except.ok.inj hs ▸ ht⟩

/-! ## Success and failure -/

namespace Becomes

theorem suits (h : Becomes args s t) : s.Suits args.length := by
  cases h with
  | shape | tuple | union => trivial
  | param ht => exact (List.getElem?_eq_some_iff.1 ht).1
  | plain hg => exact fun hg' => absurd hg' (by simp [hg])
  | unbound _ ha => exact fun _ => ⟨fun hne => absurd rfl hne, fun _ => ha.symm⟩
  | bound zs _ hne ha =>
    exact fun _ => ⟨fun _ => by rwa [List.length_map], fun h => absurd (List.map_eq_nil_iff.1 h) hne⟩

/-- Whatever is entered becomes something too. -/
theorem exists_of_entered (h : Becomes args s t) {c : StaticType} (hc : c ∈ s.entered) :
    ∃ u, Becomes args c u := by
  cases h with
  | shape z hz =>
    obtain ⟨b, hb, rfl⟩ := Shape.exists_of_mem_children hc
    exact ⟨b.2, hz b hb⟩
  | param => cases hc
  | plain hg =>
    rw [entered, if_neg (by simp [hg])] at hc
    cases hc
  | unbound =>
    rw [entered, ite_self] at hc
    cases hc
  | bound zs hg _ _ hz =>
    rw [entered, if_pos hg] at hc
    obtain ⟨b, hb, rfl⟩ := List.mem_map.1 hc
    exact ⟨b.2, hz b hb⟩
  | tuple zs hz | union zs hz =>
    obtain ⟨b, hb, rfl⟩ := List.mem_map.1 hc
    exact ⟨b.2, hz b hb⟩

theorem exists_of_meets (h : Becomes args s t) {c : StaticType} (hc : s.Meets c) :
    ∃ u, Becomes args c u := by
  induction hc with
  | self => exact ⟨t, h⟩
  | inside _ hm ih =>
    obtain ⟨u, hu⟩ := ih
    exact hu.exists_of_entered hm

end Becomes

theorem exists_becomes_iff :
    (∃ t, Becomes args s t) ↔ ∀ t, s.Meets t → t.Suits args.length := by
  constructor
  · rintro ⟨u, hu⟩ t ht
    obtain ⟨v, hv⟩ := hu.exists_of_meets ht
    exact hv.suits
  · intro h
    cases hr : s.replaceParams args with
    | ok t => exact ⟨t, replaceParams_eq_ok.1 hr⟩
    | error e =>
      obtain ⟨t, ht, he⟩ := (failing_replaceParams .self).2 e hr
      exact absurd (h t ht) he.not_suits

/-! ## What is left -/

/-- A condition on a type and on all types inside it, type arguments included. -/
inductive Throughout (P : StaticType → Prop) : StaticType → Prop
  | intro {t : StaticType} (here : P t) (inside : ∀ c ∈ t.children, Throughout P c) : Throughout P t

/-- Neither a parameter nor a reference to a generic type that still lacks its arguments. -/
def Ground : StaticType → Prop
  | param .. => False
  | named d args => d.isGeneric = true → args ≠ []
  | _ => True

/-- References to types that are not generic carry no arguments. -/
def Bare : StaticType → Prop
  | named d args => d.isGeneric = false → args = []
  | _ => True

theorem Throughout.inside {P : StaticType → Prop} (h : s.Throughout P) :
    ∀ c ∈ s.children, c.Throughout P := by
  cases h with
  | intro _ inside => exact inside

theorem Becomes.ground (h : Becomes args s t) (ha : ∀ a ∈ args, a.Throughout Ground)
    (hs : s.Throughout Bare) : t.Throughout Ground := by
  have hmap {zs : List (StaticType × StaticType)}
      (ih : ∀ c ∈ zs, c.1.Throughout Bare → c.2.Throughout Ground)
      (hin : ∀ c ∈ zs.map Prod.fst, c.Throughout Bare) :
      ∀ c ∈ zs.map Prod.snd, c.Throughout Ground :=
    List.forall_mem_map.2 fun c hc => ih c hc (hin _ (List.mem_map_of_mem hc))
  induction h with
  | shape z _ ih =>
    refine .intro trivial fun c hc => ?_
    obtain ⟨b, hb, rfl⟩ := Shape.exists_of_mem_children hc
    exact ih b hb (hs.inside _ (Shape.mem_children_map Prod.fst hb))
  | param ht => exact ha _ (List.mem_of_getElem? ht)
  | plain hg =>
    cases hs with
    | intro here _ =>
      obtain rfl := here hg
      exact .intro (fun hg' => absurd hg' (by simp [hg])) fun c hc => by cases hc
  | unbound hg hn =>
    refine .intro (fun _ hnil => ?_) ha
    exact Decl.isGeneric_iff.1 hg (by rw [← hn, hnil, List.length_nil])
  | bound zs hg hne _ _ ih =>
    exact .intro (fun _ h => hne (List.map_eq_nil_iff.1 h)) (hmap ih hs.inside)
  | tuple zs _ ih | union zs _ ih => exact .intro trivial (hmap ih hs.inside)

/-- Substitution succeeds exactly when every part that it meets suits the number of arguments.  It
fails for a wrong number of arguments only, or is cut off at a parameter with the last index.  From
arguments that are ground it makes ground types, if references to types that are not generic carry
no arguments. -/
theorem substitute_ok_iff (hne : args ≠ []) :
    ((∃ t, s.substitute args = .ok t) ↔ ∀ t, s.Meets t → t.Suits args.length) ∧
    (∀ e, s.substitute args = .error e → ∃ t, s.Meets t ∧ ¬t.Suits args.length ∧
      ((∃ subject expected actual, e = .arity subject expected actual ∧ expected ≠ actual) ∨
        e = .overflow ∧ ∃ name, t = .param lastIndex name)) ∧
    ((∀ a ∈ args, a.Throughout Ground) → s.Throughout Bare →
      ∀ t, s.substitute args = .ok t → t.Throughout Ground) := by
  refine ⟨?_, fun e he => ?_, fun ha hs t ht => ?_⟩
  · simp only [substitute_eq_ok hne]
    exact exists_becomes_iff
  · rw [substitute_of_ne_nil hne] at he
    obtain ⟨t, ht, hr⟩ := (failing_replaceParams .self).2 e he
    exact ⟨t, ht, hr.not_suits, hr.arity_or_last⟩
  · exact ((substitute_eq_ok hne).1 ht).ground ha hs

/-- A shelf takes one argument, and no more. -/
theorem substitute_ok_iff_shelf :
    (∀ t, shelf.Meets t → t.Suits 1) ∧ shelf.Throughout Bare ∧
      (StaticType.shape (.basic .int)).Throughout Ground ∧
      (shelfOf (.shape (.basic .int))).Throughout Ground := by
  have hne : [StaticType.shape (.basic .int)] ≠ [] := List.cons_ne_nil _ _
  have hint : (StaticType.shape (.basic .int)).Throughout Ground :=
    .intro trivial fun c hc => absurd hc List.not_mem_nil
  have hbare : shelf.Throughout Bare := by
    refine .intro trivial fun c hc => ?_
    rcases List.mem_pair.1 hc with rfl | rfl
    · exact .intro trivial fun c hc => absurd hc List.not_mem_nil
    · exact .intro (fun _ => rfl) fun c hc => absurd hc List.not_mem_nil
  have hshelf := (substitute_eq_ok hne).2 (becomes_shelf _)
  obtain ⟨hiff, -, hground⟩ := substitute_ok_iff (s := shelf) hne
  refine ⟨hiff.1 ⟨_, hshelf⟩, hbare, hint, hground ?_ hbare _ hshelf⟩
  intro a ha
  rw [List.mem_singleton.1 ha]
  exact hint

/-- A parameter at the last index gets no answer about the number of arguments. -/
theorem substitute_lastIndex :
    (param lastIndex "T").substitute [.shape (.basic .int)] = .error .overflow := by
  rw [substitute_of_ne_nil (List.cons_ne_nil _ _), replaceParams]
  rfl

end StaticType
end TypeIdentity
