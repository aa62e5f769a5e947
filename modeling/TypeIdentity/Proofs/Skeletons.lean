import TypeIdentity.Proofs.Engine.Correspondence
import TypeIdentity.Proofs.Literal.Transcripts
import TypeIdentity.Proofs.Substitution

/-! # Skeletons

A skeleton is the definition of a generic type.  It is instantiated in two ways that agree: its
parameters are replaced by types, or the texts of the types are put where its text has parameters.
-/
namespace TypeIdentity
open TypeLiteral

namespace StaticType

/-- No parameter beyond the first `n`, and every reference with as many arguments as its declaration
has parameters, unless it has none and takes over all `n`. -/
inductive Skeleton (n : Nat) : StaticType → Prop
  | shape {s : Shape StaticType} (hc : ∀ c ∈ s.children, Skeleton n c) : Skeleton n (.shape s)
  | named {d : Decl} {bound : List StaticType}
      (ha : bound.length = d.arity ∨ bound = [] ∧ d.arity = n) (hc : ∀ c ∈ bound, Skeleton n c) :
      Skeleton n (.named d bound)
  | param {index : UInt64} {name : String} (hi : index.toNat < n) : Skeleton n (.param index name)

/-- The literal of a skeleton with literals in the places of its parameters. -/
def literalAt (args : List TypeLiteral) : StaticType → TypeLiteral
  | shape s => .shape (s.attach.mapChildren fun c => literalAt args c.1)
  | named d bound =>
    if d.isGeneric ∧ bound = [] then .named d.path d.name args
    else .named d.path d.name (bound.attach.map fun c => literalAt args c.1)
  | param index _ => args.getD index.toNat .any
  | tuple _ | union _ => .any
termination_by t => sizeOf t
decreasing_by all_goals exact sizeOf_lt_of_mem_children c.2

/-- The canonical text of a skeleton with texts in the places of its parameters. -/
def textAt (texts : List String) (skeleton : StaticType) : String :=
  (skeleton.literalAt (texts.map verbatim)).canonical

/-- The literal of a skeleton before its parameters are replaced. -/
def pattern (n : Nat) (skeleton : StaticType) : TypeLiteral :=
  skeleton.literalAt (List.replicate n .any)

variable {n : Nat} {s : StaticType} {ks ls : List TypeLiteral} {args : List StaticType}

theorem literalAt_shape (ls : List TypeLiteral) (s : Shape StaticType) :
    (shape s).literalAt ls = .shape (s.mapChildren (literalAt ls)) := by
  rw [literalAt, Shape.attach_mapChildren]

theorem literalAt_named (ls : List TypeLiteral) (d : Decl) (bound : List StaticType) :
    (named d bound).literalAt ls = .named d.path d.name
      (if d.isGeneric ∧ bound = [] then ls else bound.map (literalAt ls)) := by
  rw [literalAt, List.attach_map_val]
  split <;> rfl

theorem literalAt_param (ls : List TypeLiteral) (index : UInt64) (name : String) :
    (param index name).literalAt ls = ls.getD index.toNat .any := by
  rw [literalAt]

theorem literalAt_param_of_lt {index : UInt64} (hi : index.toNat < ls.length) (name : String) :
    (param index name).literalAt ls = ls[index.toNat] := by
  rw [literalAt_param, List.getD_eq_getElem?_getD, List.getElem?_eq_getElem hi, Option.getD_some]

/-! ## Substitution -/

/-- What substitution makes of a skeleton. -/
def filled (args : List StaticType) (s : StaticType) : StaticType :=
  (s.replaceParams args).toOption.getD s

/-- Substitution fails for none of the skeletons inside. -/
def Filled (args : List StaticType) (s : StaticType) : Prop :=
  s.replaceParams args = .ok (s.filled args)

theorem filled_of_ok {t : StaticType} (h : s.replaceParams args = .ok t) :
    s.Filled args ∧ s.filled args = t := by
  have ht : s.filled args = t := by rw [filled, h]; rfl
  exact ⟨h.trans (congrArg _ ht.symm), ht⟩

theorem filled_shape {s : Shape StaticType} (h : ∀ c ∈ s.children, c.Filled args) :
    (shape s).Filled args ∧ (shape s).filled args = .shape (s.mapChildren (filled args)) := by
  have hwalk : s.traverse (replaceParams args) = .ok (s.mapChildren (filled args)) :=
    Outcome.except.traverse h
  apply filled_of_ok
  rw [replaceParams, Shape.attach_traverse, hwalk]
  rfl

/-- The arguments a reference has after substitution. -/
def filledArgs (args : List StaticType) (d : Decl) (bound : List StaticType) : List StaticType :=
  if d.isGeneric ∧ bound = [] then args else bound.map (filled args)

theorem filled_named {d : Decl} {bound : List StaticType}
    (ha : bound.length = d.arity ∨ bound = [] ∧ d.arity = args.length)
    (h : ∀ c ∈ bound, c.Filled args) :
    (named d bound).Filled args ∧
      (named d bound).filled args = .named d (filledArgs args d bound) := by
  apply filled_of_ok
  rw [replaceParams, filledArgs]
  by_cases hg : d.isGeneric = true
  · rw [if_neg (by simp [hg])]
    by_cases hb : bound = []
    · have hn : args.length = d.arity := by
        rcases ha with ha | ⟨-, ha⟩
        · rw [hb] at ha
          exact absurd ha.symm (Decl.isGeneric_iff.1 hg)
        · exact ha.symm
      rw [if_pos hb, if_pos hn, if_pos ⟨hg, hb⟩]
    · have hn : bound.length = d.arity := ha.resolve_right fun h => hb h.1
      have hwalk : bound.mapM (replaceParams args) = .ok (bound.map (filled args)) :=
        Outcome.except.mapM h
      rw [if_neg hb, if_pos hn, if_neg fun h => hb h.2, attach_mapM, hwalk]
      rfl
  · have hz : d.arity = 0 := by simpa [Decl.isGeneric_iff] using hg
    obtain rfl : bound = [] := by
      rcases ha with ha | ⟨hb, -⟩
      · exact List.length_eq_zero_iff.1 (ha.trans hz)
      · exact hb
    rw [if_pos (by simp [hg]), if_neg fun h => hg h.1, List.map_nil]

theorem filled_param {index : UInt64} {name : String} (hi : index.toNat < args.length) :
    (param index name).Filled args ∧ (param index name).filled args = args[index.toNat] := by
  apply filled_of_ok
  rw [replaceParams, List.getElem?_eq_getElem hi]

/-- Substitution does not fail for a skeleton with enough arguments. -/
theorem Skeleton.filled (h : Skeleton args.length s) : s.Filled args := by
  induction h with
  | shape _ ih => exact (filled_shape ih).1
  | named ha _ ih => exact (filled_named ha ih).1
  | param hi => exact (filled_param hi).1

/-- The literal of a type made by substitution is the literal of the skeleton with those of the
arguments put in. -/
theorem Skeleton.literal_filled (h : Skeleton args.length s) :
    (s.filled args).literal = s.literalAt (args.map literal) := by
  induction h with
  | @shape s hc ih =>
    rw [(filled_shape fun c hm => (hc c hm).filled).2, literal_shape, literalAt_shape,
      Shape.mapChildren_mapChildren]
    exact congrArg TypeLiteral.shape (Shape.mapChildren_congr ih)
  | @named d bound ha hc ih =>
    rw [(filled_named ha fun c hm => (hc c hm).filled).2, literal_named, literalAt_named, filledArgs]
    split
    · rfl
    · rw [List.map_map]
      exact congrArg _ (List.map_congr_left ih)
  | @param index name hi =>
    have hi' : index.toNat < (args.map literal).length := by rwa [List.length_map]
    rw [(filled_param hi).2, literalAt_param_of_lt hi', List.getElem_map]

/-! ## From the pattern to the literal -/

theorem pattern_shape (n : Nat) (s : Shape StaticType) :
    (shape s).pattern n = .shape (s.mapChildren (pattern n)) :=
  literalAt_shape _ s

theorem pattern_named (n : Nat) (d : Decl) (bound : List StaticType) :
    (named d bound).pattern n = .named d.path d.name
      (if d.isGeneric ∧ bound = [] then List.replicate n .any else bound.map (pattern n)) :=
  literalAt_named _ d bound

theorem pattern_param (n : Nat) (index : UInt64) (name : String) :
    (param index name).pattern n = .any := by
  rw [pattern, literalAt_param, List.getD_eq_getElem?_getD, List.getElem?_replicate]
  split <;> rfl

/-- What may be embedded in the pattern is no parameter and has its name already. -/
theorem embeddable_of_pattern (h : (s.pattern n).Embeddable) :
    (s.literalAt ls).Embeddable ∧ (s.literalAt ls).embeddedName = (s.pattern n).embeddedName := by
  have hname (d : Decl) (bound : List StaticType) : ∃ as bs,
      (named d bound).pattern n = .named d.path d.name as ∧
        (named d bound).literalAt ls = .named d.path d.name bs :=
    ⟨_, _, pattern_named n d bound, literalAt_named ls d bound⟩
  cases s with
  | named d bound =>
    obtain ⟨as, bs, has, hbs⟩ := hname d bound
    rw [has, hbs]
    exact ⟨trivial, rfl⟩
  | shape s =>
    rw [pattern_shape, literalAt_shape] at *
    cases s with
    | basic b => exact ⟨h, rfl⟩
    | pointer e =>
      cases e with
      | named d bound =>
        obtain ⟨as, bs, has, hbs⟩ := hname d bound
        rw [Shape.mapChildren, Shape.mapChildren, has, hbs]
        exact ⟨trivial, rfl⟩
      | shape e =>
        rw [Shape.mapChildren, Shape.mapChildren, pattern_shape, literalAt_shape] at *
        cases e with
        | basic b => exact ⟨h, rfl⟩
        | _ => exact absurd h id
      | param index name =>
        rw [Shape.mapChildren, pattern_param] at h
        exact absurd h id
      | tuple | union =>
        rw [Shape.mapChildren, pattern, literalAt] at h
        exact absurd h id
    | _ => exact absurd h id
  | param index name =>
    rw [pattern_param] at h
    exact absurd h id
  | tuple | union =>
    rw [pattern, literalAt] at h
    exact absurd h id

theorem slice_of_pattern (h : (s.pattern n).kind = .slice) : (s.literalAt ls).kind = .slice := by
  cases s with
  | shape s =>
    rw [pattern_shape] at h
    rw [literalAt_shape]
    cases s with
    | slice => rfl
    | _ => cases h
  | named d bound =>
    rw [pattern_named] at h
    cases h
  | param index name =>
    rw [pattern_param] at h
    cases h
  | tuple | union =>
    rw [pattern, literalAt] at h
    cases h

theorem signature_of_pattern {s : Signature StaticType} (h : (s.map (pattern n)).WellFormed) :
    (s.map (literalAt ls)).WellFormed := by
  intro hv
  obtain ⟨t, ht, hk⟩ := h hv
  obtain ⟨c, hc, rfl⟩ : ∃ c ∈ s.ins.getLast?, pattern n c = t := by
    simpa [Signature.map] using ht
  refine ⟨c.literalAt ls, ?_, slice_of_pattern hk⟩
  have hm : c.literalAt ls ∈ (s.ins.map (literalAt ls)).getLast? := by
    rw [List.getLast?_map, hc]
    rfl
  exact hm

theorem nodeWellFormed_of_pattern {spell : String → String} {s : Shape StaticType}
    (h : NodeWellFormed spell (.shape (s.mapChildren (pattern n)))) :
    NodeWellFormed spell (.shape (s.mapChildren (literalAt ls))) := by
  cases s with
  | func s => exact signature_of_pattern h
  | struct fs =>
    intro g hg
    obtain ⟨f, hf, rfl⟩ := List.mem_map.1 hg
    obtain ⟨hname, hembed⟩ := h _ (List.mem_map_of_mem hf)
    refine ⟨hname, fun he => ?_⟩
    obtain ⟨hp, hn⟩ := hembed he
    obtain ⟨hl, hsame⟩ := embeddable_of_pattern hp
    exact ⟨hl, hn.trans hsame.symm⟩
  | interface ms =>
    intro g hg
    obtain ⟨m, hm, rfl⟩ := List.mem_map.1 hg
    obtain ⟨hname, hsig⟩ := h _ (List.mem_map_of_mem hm)
    exact ⟨hname, signature_of_pattern hsig⟩
  | _ => trivial

/-- What holds everywhere in the pattern and in the arguments holds everywhere in the literal, if it
depends on no parameter. -/
theorem Skeleton.everywhere {P : TypeLiteral → Prop} (hs : Skeleton n s) (hlen : ls.length = n)
    (hshape : ∀ s : Shape StaticType, P (.shape (s.mapChildren (pattern n))) →
      P (.shape (s.mapChildren (literalAt ls))))
    (hnamed : ∀ path name as bs, (as = [] ↔ bs = []) → P (.named path name as) →
      P (.named path name bs))
    (hl : ∀ l ∈ ls, l.Everywhere P) (h : (s.pattern n).Everywhere P) :
    (s.literalAt ls).Everywhere P := by
  induction hs with
  | @shape s _ ih =>
    rw [pattern_shape] at h
    rw [literalAt_shape]
    refine .intro (hshape s h.here) fun c hc => ?_
    obtain ⟨c, hm, rfl⟩ := Shape.exists_of_mem_children hc
    exact ih c hm (h.inside _ (Shape.mem_children_map _ hm))
  | @named d bound _ _ ih =>
    rw [pattern_named] at h
    rw [literalAt_named]
    refine .intro (hnamed _ _ _ _ ?_ h.here) fun c hc => ?_
    · split
      · rw [← List.length_eq_zero_iff, ← List.length_eq_zero_iff, List.length_replicate, hlen]
      · rw [List.map_eq_nil_iff, List.map_eq_nil_iff]
    · have hin := h.inside
      rw [TypeLiteral.children] at hc hin
      split at hc
      · exact hl c hc
      · next hg =>
        obtain ⟨c, hm, rfl⟩ := List.mem_map.1 hc
        rw [if_neg hg] at hin
        exact ih c hm (hin _ (List.mem_map_of_mem hm))
  | @param index name hi =>
    have hi' : index.toNat < ls.length := hlen ▸ hi
    rw [literalAt_param_of_lt hi']
    exact hl _ (List.getElem_mem hi')

theorem Skeleton.wellFormed (hs : Skeleton n s) (hlen : ls.length = n)
    (h : (s.pattern n).WellFormed) (hl : ∀ l ∈ ls, l.WellFormed) : (s.literalAt ls).WellFormed := by
  refine hs.everywhere hlen (fun _ => nodeWellFormed_of_pattern) (fun path name as bs he hn => ?_) hl h
  have hn' : NameWellFormed id path name as := hn
  rw [NameWellFormed, he] at hn'
  exact hn'

theorem Skeleton.unmarked (hs : Skeleton n s) (hlen : ls.length = n)
    (h : (s.pattern n).Everywhere fun u => Unmarked u.path)
    (hl : ∀ l ∈ ls, l.Everywhere fun u => Unmarked u.path) :
    (s.literalAt ls).Everywhere fun u => Unmarked u.path :=
  hs.everywhere hlen (fun _ hn => hn) (fun _ _ _ _ _ hn => hn) hl h

/-! ## From the literal to the text -/

/-- The text of a skeleton with the texts of literals put in is a transcript of the literal. -/
theorem Skeleton.transcribes {allowed : String → Prop} (hs : Skeleton n s) (hlen : ls.length = n)
    (hw : (s.pattern n).WellFormed) (hl : (s.literalAt ls).Legible id allowed) :
    Transcribes id allowed (s.literalAt (ls.map fun l => verbatim l.canonical)) (s.literalAt ls) := by
  generalize hks : (ls.map fun l => verbatim l.canonical) = ks
  induction hs with
  | @shape s _ ih =>
    rw [pattern_shape] at hw
    rw [literalAt_shape] at hl ⊢
    rw [literalAt_shape]
    let z : Shape (TypeLiteral × TypeLiteral) :=
      s.mapChildren fun c => (c.literalAt ks, c.literalAt ls)
    have hfst : z.mapChildren Prod.fst = s.mapChildren (literalAt ks) :=
      Shape.mapChildren_mapChildren ..
    have hsnd : z.mapChildren Prod.snd = s.mapChildren (literalAt ls) :=
      Shape.mapChildren_mapChildren ..
    have hu : NodeWellFormed id (.shape (s.mapChildren (literalAt ks))) :=
      nodeWellFormed_of_pattern hw.here
    rw [← hfst] at hu ⊢
    rw [← hsnd] at hl ⊢
    refine .shape z hu hl fun p hp => ?_
    obtain ⟨c, hc, rfl⟩ := Shape.exists_of_mem_children hp
    refine ih c hc (hw.inside _ (Shape.mem_children_map _ hc)) (hl.inside _ ?_)
    exact Shape.mem_children_map Prod.snd hp
  | @named d bound _ _ ih =>
    rw [pattern_named] at hw
    rw [literalAt_named] at hl ⊢
    rw [literalAt_named]
    split at hl
    · next hg =>
      let zs : List (TypeLiteral × TypeLiteral) := ls.map fun l => (verbatim l.canonical, l)
      have hfst : zs.map Prod.fst = ks := by rw [← hks, List.map_map]; rfl
      have hsnd : zs.map Prod.snd = ls := by simp [zs, Function.comp_def]
      rw [if_pos hg, if_pos hg, ← hfst]
      rw [← hsnd] at hl ⊢
      refine .named _ _ zs hl fun p hp => ?_
      obtain ⟨l, hm, rfl⟩ := List.mem_map.1 hp
      exact .text (hl.inside l (hsnd.symm ▸ hm))
    · next hg =>
      let zs : List (TypeLiteral × TypeLiteral) :=
        bound.map fun c => (c.literalAt ks, c.literalAt ls)
      have hfst : zs.map Prod.fst = bound.map (literalAt ks) := List.map_map ..
      have hsnd : zs.map Prod.snd = bound.map (literalAt ls) := List.map_map ..
      rw [if_neg hg] at hw
      rw [if_neg hg, if_neg hg, ← hfst]
      rw [← hsnd] at hl ⊢
      refine .named _ _ zs hl fun p hp => ?_
      obtain ⟨c, hc, rfl⟩ := List.mem_map.1 hp
      refine ih c hc (hw.inside _ (List.mem_map_of_mem hc)) (hl.inside _ ?_)
      exact List.mem_map_of_mem hp
  | @param index name hi =>
    have hi' : index.toNat < ls.length := hlen ▸ hi
    subst hks
    have hk : index.toNat < (ls.map fun l => verbatim l.canonical).length := by rwa [List.length_map]
    rw [literalAt_param_of_lt hi'] at hl
    rw [literalAt_param_of_lt hk, literalAt_param_of_lt hi', List.getElem_map]
    exact .text hl

end StaticType
end TypeIdentity
