import TypeIdentity.Proofs.Engine.Recall
import TypeIdentity.Proofs.Literal.Lengths

/-! # What is found first

While the literal of a type is built, what is stored prints shorter and what is remembered are
smaller types.  So an engine that knows nothing hands out the literal as it has built it, with the
head of the type, whatever the components of the literal print like.
-/
namespace TypeIdentity

namespace LiteralTable
variable {table after last : LiteralTable} {lit : TypeLiteral} {n k : Nat}

/-- Every literal is stored under its own text only. -/
def Keyed (table : LiteralTable) : Prop :=
  ∀ id lit, table.get? id = some lit → lit.canonical = id

/-- What has been stored since is stored under its own text, of less than `n` characters. -/
def GrowsBelow (n : Nat) (table after : LiteralTable) : Prop :=
  ∀ id lit, after.get? id = some lit →
    table.get? id = some lit ∨ lit.canonical = id ∧ id.length < n

theorem GrowsBelow.refl (n : Nat) (table : LiteralTable) : GrowsBelow n table table :=
  fun _ _ h => .inl h

theorem GrowsBelow.trans (h : GrowsBelow n table after) (hl : GrowsBelow n after last) :
    GrowsBelow n table last := by
  intro id lit hid
  rcases hl id lit hid with hid | hid
  · exact h id lit hid
  · exact .inr hid

theorem GrowsBelow.mono (h : GrowsBelow n table after) (hn : n ≤ k) : GrowsBelow k table after := by
  intro id lit hid
  rcases h id lit hid with hid | ⟨hkey, hlt⟩
  · exact .inl hid
  · exact .inr ⟨hkey, hlt.trans_le hn⟩

theorem GrowsBelow.keyed (h : GrowsBelow n table after) (ht : table.Keyed) : after.Keyed := by
  intro id lit hid
  rcases h id lit hid with hid | ⟨hkey, -⟩
  · exact ht id lit hid
  · exact hkey

/-- Interning answers with a literal that prints like the given one. -/
theorem Keyed.intern (h : table.Keyed) (lit : TypeLiteral) :
    (table.intern lit).1.canonical = lit.canonical ∧
      GrowsBelow (lit.canonical.length + 1) table (table.intern lit).2 := by
  rw [LiteralTable.intern]
  cases hg : table.get? lit.canonical with
  | some stored =>
    have hkey : table.entries[lit.canonical]? = some stored := hg
    simp only [hkey]
    exact ⟨h _ _ hg, .refl _ table⟩
  | none =>
    have hkey : table.entries[lit.canonical]? = none := hg
    simp only [hkey]
    refine ⟨trivial, fun id known hid => ?_⟩
    rw [adds_insert hg lit id, Option.or_eq_some_iff] at hid
    rcases hid with hid | ⟨-, hid⟩
    · exact .inl hid
    · split at hid
      next hkey =>
        obtain rfl := Option.some.inj hid
        exact .inr ⟨hkey, hkey ▸ Nat.lt_succ_self _⟩
      · cases hid

theorem intern_of_none (h : table.get? lit.canonical = none) : (table.intern lit).1 = lit := by
  have hkey : table.entries[lit.canonical]? = none := h
  simp only [LiteralTable.intern, hkey]

end LiteralTable

namespace Engine.Memory
open StaticType LiteralTable
variable {store : Store} {m m' built : Memory} {t u : StaticType} {ts : List StaticType}
  {lit : TypeLiteral} {lits : List TypeLiteral} {n : Nat}

/-! ## Smaller types -/

theorem sizeOf_child_lt {c : StaticType} (hc : c ∈ t.children) :
    sizeOf c.nominal < sizeOf t.nominal := by
  apply sizeOf_lt_of_mem_children
  rw [children_nominal]
  exact List.mem_map_of_mem hc

/-- What is remembered by looking a type up is not larger than the type. -/
theorem sizeOf_of_runs (h : Runs (look store t) m m') (hu : u ∈ m'.recalled) :
    u ∈ m.recalled ∨ sizeOf u.nominal ≤ sizeOf t.nominal := by
  induction t using child_induct generalizing m m' u with
  | h t ih =>
    by_cases ht : t ∈ m.recalled
    · rw [(runs_known ht).1 h] at hu
      exact .inl hu
    · obtain ⟨-, built, hr, hb⟩ := children_of_runs ht h
      have hbuilt : ∀ u ∈ built.recalled, u ∈ m.recalled ∨ sizeOf u.nominal ≤ sizeOf t.nominal := by
        refine preserved_of_runs (P := fun g => ∀ u ∈ g.recalled, u ∈ m.recalled ∨
          sizeOf u.nominal ≤ sizeOf t.nominal) _ ?_ (fun u hu => .inl hu) hr
        intro c hc g g' hg hgg u hu
        rcases ih c hc hgg hu with hu | hle
        · exact hg u hu
        · exact .inr (hle.trans (sizeOf_child_lt hc).le)
      rcases (hb u).1 hu with hs | hu
      · exact .inr (hs ▸ le_rfl)
      · exact hbuilt u hu

/-- A type is not remembered before its components have been looked up. -/
theorem not_mem_recalled_of_runs (ht : t ∉ m.recalled)
    (h : Runs (t.children.mapM (look store)) m built) : t ∉ built.recalled := by
  have hbuilt : ∀ u ∈ built.recalled, u ∈ m.recalled ∨ sizeOf u.nominal < sizeOf t.nominal := by
    refine preserved_of_runs (P := fun g => ∀ u ∈ g.recalled, u ∈ m.recalled ∨
      sizeOf u.nominal < sizeOf t.nominal) _ ?_ (fun u hu => .inl hu) h
    intro c hc g g' hg hgg u hu
    rcases sizeOf_of_runs hgg hu with hu | hle
    · exact hg u hu
    · exact .inr (hle.trans_lt (sizeOf_child_lt hc))
  intro hmem
  rcases hbuilt t hmem with hu | hlt
  · exact ht hu
  · exact lt_irrefl _ hlt

/-! ## Shorter texts -/

/-- A type that is not known is given what is stored for the literal that is built for it. -/
theorem look_unknown (ht : t ∉ m.recalled) (h : look store t m = (.ok lit, m')) :
    ∃ own built, build store (.static t) m.missed = (.ok own, built) ∧
      t.children.mapM (look store) m.missed = (.ok own.children, built) ∧
      lit = (built.tables.literals.intern own).1 ∧
      m'.tables.literals = (built.tables.literals.intern own).2 := by
  rw [run_unknown ht] at h
  obtain ⟨own, built, hb, hsettle⟩ := Outcome.exists_of_run_bind h
  have hchildren : t.children.mapM (look store) m.missed = (.ok own.children, built) := by
    rw [← children_build (shown_of_runs ⟨own, hb⟩), map_eq_pure_bind]
    exact Outcome.run_bind hb
  have hnew : t ∉ built.recalled := not_mem_recalled_of_runs (m := m.missed) ht ⟨_, hchildren⟩
  have hnone := identity?_of_not_mem hnew
  rw [identity?_eq] at hnone
  rw [Outcome.run_bind (share_eq own built), remember_eq] at hsettle
  obtain ⟨hlit, rfl⟩ := Prod.mk.inj hsettle
  refine ⟨own, built, hb, hchildren, ?_, rfl⟩
  rw [← Except.ok.inj hlit]
  exact congrArg (Option.getD · _) hnone

/-- Looking up a list of types stores texts as long as those found, if each member does so. -/
theorem growsBelow_mapM
    (h : ∀ t ∈ ts, ∀ m m' lit, m.tables.literals.Keyed → look store t m = (.ok lit, m') →
      GrowsBelow (lit.canonical.length + 1) m.tables.literals m'.tables.literals)
    (hm : m.tables.literals.Keyed) (hr : ts.mapM (look store) m = (.ok lits, m'))
    (hn : ∀ lit ∈ lits, lit.canonical.length < n) :
    GrowsBelow n m.tables.literals m'.tables.literals := by
  induction ts generalizing m lits with
  | nil =>
    obtain ⟨-, rfl⟩ := Prod.mk.inj hr
    exact .refl n _
  | cons t ts ih =>
    rw [List.mapM_cons] at hr
    obtain ⟨lit, after, ht, hr⟩ := Outcome.exists_of_run_bind hr
    obtain ⟨rest, last, hts, hlast⟩ := Outcome.exists_of_run_bind hr
    obtain ⟨hlits, rfl⟩ := Prod.mk.inj hlast
    obtain rfl := Except.ok.inj hlits
    have hfirst := h t (List.mem_cons_self ..) m after lit hm ht
    refine (hfirst.mono (hn lit (List.mem_cons_self ..))).trans ?_
    exact ih (fun u hu => h u (List.mem_cons_of_mem _ hu)) (hfirst.keyed hm) hts
      fun l hl => hn l (List.mem_cons_of_mem _ hl)

/-- What is stored by looking a type up prints no longer than what is found. -/
theorem growsBelow_look (hm : m.tables.literals.Keyed) (h : look store t m = (.ok lit, m')) :
    GrowsBelow (lit.canonical.length + 1) m.tables.literals m'.tables.literals := by
  induction t using child_induct generalizing m m' lit with
  | h t ih =>
    by_cases ht : t ∈ m.recalled
    · obtain rfl := (runs_known ht).1 ⟨lit, h⟩
      exact .refl _ _
    · obtain ⟨own, built, -, hc, rfl, hm'⟩ := look_unknown ht h
      have hbelow : GrowsBelow (own.canonical.length + 1) m.tables.literals built.tables.literals :=
        growsBelow_mapM (fun c hc m m' l => ih c hc) (m := m.missed) hm hc fun l hl =>
          (TypeLiteral.length_canonical_lt hl).trans (Nat.lt_succ_self _)
      obtain ⟨htext, hown⟩ := (hbelow.keyed hm).intern own
      rw [hm', htext]
      exact hbelow.trans hown

/-! ## An engine that knows nothing -/

/-- Nothing is stored and nothing is remembered. -/
structure Blank (m : Memory) : Prop where
  literals : ∀ id, m.tables.literals.get? id = none
  identities : ∀ t, t ∉ m.recalled

theorem blank_fresh (config : Config) : Blank { config } where
  literals id := by simp [LiteralTable.get?, LiteralTable.empty]
  identities _ := Std.HashMap.not_mem_empty

theorem Blank.missed (hm : m.Blank) : m.missed.Blank := ⟨hm.literals, hm.identities⟩

/-- The literal that is found first is the one that is built. -/
theorem Blank.look_eq (hm : m.Blank) (h : look store t m = (.ok lit, m')) :
    ∃ built, build store (.static t) m.missed = (.ok lit, built) := by
  obtain ⟨own, built, hb, hc, rfl, -⟩ := look_unknown (hm.identities t) h
  have hkeyed : m.missed.tables.literals.Keyed := fun id lit hid => by
    rw [hm.missed.literals] at hid
    cases hid
  have hbelow := growsBelow_mapM (fun c _ m m' l => growsBelow_look) hkeyed hc fun l hl =>
    TypeLiteral.length_canonical_lt hl
  refine ⟨built, ?_⟩
  rw [intern_of_none]
  · exact hb
  · cases hk : built.tables.literals.get? own.canonical with
    | none => rfl
    | some known =>
      rcases hbelow _ known hk with hold | ⟨-, hlt⟩
      · rw [hm.missed.literals] at hold
        cases hold
      · exact absurd hlt (lt_irrefl _)

theorem Blank.look_named {d : Decl} {args : List StaticType} (hm : m.Blank)
    (h : look store (.named d args) m = (.ok lit, m')) : ∃ ls, lit = .named d.path d.name ls := by
  obtain ⟨built, hb⟩ := hm.look_eq h
  obtain ⟨v, hv⟩ := shown_named.1 (shown_of_runs ⟨lit, hb⟩)
  rw [build_named hv] at hb
  obtain ⟨ls, -, rfl⟩ := Outcome.exists_of_run_map hb
  exact ⟨ls, rfl⟩

theorem Blank.look_basic {b : BasicType} (hm : m.Blank)
    (h : look store (.shape (.basic b)) m = (.ok lit, m')) : lit = .shape (.basic b) := by
  obtain ⟨built, hb⟩ := hm.look_eq h
  exact (Except.ok.inj (Prod.mk.inj hb).1).symm

theorem Blank.look_pointer {e : StaticType} (hm : m.Blank)
    (h : look store (.shape (.pointer e)) m = (.ok lit, m')) :
    ∃ elem after, look store e m.missed = (.ok elem, after) ∧ lit = .shape (.pointer elem) := by
  obtain ⟨built, hb⟩ := hm.look_eq h
  rw [build_shape] at hb
  obtain ⟨z, hz, rfl⟩ := Outcome.exists_of_run_map hb
  obtain ⟨elem, after, he, hz⟩ := Outcome.exists_of_run_bind hz
  exact ⟨elem, after, he, congrArg TypeLiteral.shape (Except.ok.inj (Prod.mk.inj hz).1).symm⟩

end Engine.Memory
end TypeIdentity
