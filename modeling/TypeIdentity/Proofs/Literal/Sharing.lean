import TypeIdentity.Proofs.Literal.Tables

/-! # Literals that can share a table

A table keeps one literal for each canonical text, so the components of a literal can be kept in one
only if no two different ones print alike.  The components of a literal that can be read back do not.
-/
namespace TypeIdentity.TypeLiteral

/-- The literal itself and all literals inside it. -/
inductive Within (root : TypeLiteral) : TypeLiteral → Prop
  | self : Within root root
  | child {t c : TypeLiteral} (ht : Within root t) (hc : c ∈ t.children) : Within root c

variable {root t c : TypeLiteral} {P : TypeLiteral → Prop}

theorem Everywhere.within (h : root.Everywhere P) (hc : root.Within c) : c.Everywhere P := by
  induction hc with
  | self => exact h
  | child _ hm ih => exact ih.inside _ hm

theorem everywhere_within (h : ∀ c, root.Within c → P c) : root.Everywhere P := by
  have hall (t : TypeLiteral) (ht : root.Within t) : t.Everywhere P := by
    induction t with
    | shape s ih => exact .intro (h _ ht) fun c hc => ih c hc (ht.child hc)
    | named path name args ih => exact .intro (h _ ht) fun c hc => ih c hc (ht.child hc)
  exact hall root .self

/-- No two different components have one canonical text. -/
def Distinct (t : TypeLiteral) : Prop :=
  t.Everywhere fun c => t.Everywhere fun d => c.canonical = d.canonical → c = d

instance : DecidablePred Distinct := fun t => by unfold Distinct; infer_instance

theorem Distinct.eq (h : root.Distinct) (ht : root.Within t) (hc : root.Within c)
    (he : t.canonical = c.canonical) : t = c :=
  ((Everywhere.within h ht).here.within hc).here he

theorem distinct_of_wellFormed (h : t.WellFormed) (hc : t.ClearParams) : t.Distinct :=
  everywhere_within fun _ hc₁ => everywhere_within fun _ hc₂ =>
    canonical_injective (h.within hc₁) (hc.within hc₁) (h.within hc₂) (hc.within hc₂)

end TypeIdentity.TypeLiteral
