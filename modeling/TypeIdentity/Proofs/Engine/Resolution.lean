import TypeIdentity.Proofs.Engine.Findings

/-! # Literals and the types they resolve to

The literal that the engine finds for a static type resolves to the type again, and the type that a
literal resolves to has that literal.
-/
namespace TypeIdentity
open TypeLiteral Engine Memory

/-- A declaration of the packages with all its arguments is found by its name. -/
theorem Packages.Filed.admits {packages : Packages} (hf : packages.Filed) :
    Admits packages.Knows packages.NodeResolves where
  shape _ := trivial
  named {d ls} hk ha hn := by
    have harity (he : d.path = "" ∧ d.name = "error") : ls = [] := by
      rcases hn with ⟨-, -, hnil⟩ | ⟨hne, -⟩
      · exact hnil
      · exact absurd he.1 hne
    by_cases herror : d.path = "" ∧ d.name = "error"
    · exact ⟨.error, by simp [lookup, herror], by rw [harity herror]; rfl⟩
    · rcases hk with rfl | ⟨path, name, hd⟩
      · exact absurd ⟨rfl, rfl⟩ herror
      · obtain ⟨rfl, rfl⟩ := hf _ _ _ hd
        exact ⟨d, lookup_of_holds hd herror, ha.symm⟩

/-- Resolving a literal and finding the literal of a static type are inverse to each other.  A
literal resolves exactly when all its names are declared with the right arity, the type it resolves
to has a literal form, and the literal found for that type is the one resolved; the literal found
for a type made of known declarations resolves to a type that is the same. -/
theorem resolve_literal_inverse {packages : Packages} (hr : packages.Reachable) (store : Store)
    (config : Config) :
    (∀ l : TypeLiteral, l.WellFormed →
      ((∃ t, packages.resolve l = .ok t) ↔ l.Everywhere packages.NodeResolves) ∧
      ∀ t, packages.resolve l = .ok t → HostType.ofStatic t = .ok (.static t) ∧
        (l.Distinct → ∀ found, (literalFor store (.static t) { config }).1 = .ok found →
          found = l)) ∧
    (∀ t : StaticType, t.EveryDecl packages.Knows → t.literal.WellFormed → t.literal.Distinct →
      ∀ l, (literalFor store (.static t) { config }).1 = .ok l →
        ∃ back, packages.resolve l = .ok back ∧ back.same t = true) := by
  have hf := hr.filed
  constructor
  · intro l hw
    refine ⟨⟨fun ⟨t, ht⟩ => (Packages.rebuilt_of_resolve hf ht).resolves,
      Packages.resolve_of_resolves⟩, fun t ht => ⟨Packages.ofStatic_of_resolve ht, ?_⟩⟩
    intro hd found hfound
    have hback := Packages.rebuilt_of_resolve hf ht
    have hlit : t.literal = l := StaticType.literal_of_nominal hback.nominal
    have hfit := fits_of_literalFor hf.admits hback.known (hlit ▸ hw) (hlit ▸ hd) hfound
    exact nominalStatic_injective (hfit.1.symm.trans hback.nominal)
  · intro t hk hw hd l hl
    have hfit := fits_of_literalFor hf.admits hk hw hd hl
    obtain ⟨back, hback⟩ := Packages.resolve_of_resolves hfit.2
    refine ⟨back, hback, StaticType.same_iff.2 ?_⟩
    exact (Packages.rebuilt_of_resolve hf hback).nominal.trans hfit.1.symm

/-- The package of the generic struct in `boxStore`. -/
def boxPackages : Packages := (Packages.empty.declare "lib" "Box" ["T"] ⟨#[], #[]⟩).2

theorem holds_box : boxPackages.Holds "lib" "Box" ⟨0, "lib", "Box", ["T"]⟩ := by
  have hnew : "Box" ∉ (Packages.empty.add "lib").byPath.getD "lib" ∅ := by
    simp [Packages.add, Packages.empty, Std.HashMap.getD_insertIfNew]
  have hd : (Packages.empty.declare "lib" "Box" ["T"] ⟨#[], #[]⟩).1 =
      .ok (⟨0, "lib", "Box", ["T"]⟩, ⟨#[.empty], #[]⟩) := by
    rw [Packages.declare, if_neg hnew]
    rfl
  exact Packages.holds_declare hd

def intBoxLiteral : TypeLiteral := named "lib" "Box" [shape (.basic .int)]

theorem resolve_literal_inverse_box : boxPackages.Reachable ∧
    (literalFor boxStore (.static (staticBox (.shape (.basic .int)))) {}).1 = .ok intBoxLiteral ∧
    ∃ back, boxPackages.resolve intBoxLiteral = .ok back ∧
      back.same (staticBox (.shape (.basic .int))) = true ∧
      HostType.ofStatic back = .ok (.static back) := by
  have hr : boxPackages.Reachable := .declare "lib" "Box" ["T"] ⟨#[], #[]⟩ .empty
  have hlit : (staticBox (.shape (.basic .int))).literal = intBoxLiteral := by decide +kernel
  have hw : intBoxLiteral.WellFormed := by unfold WellFormed WellFormedAs; decide +kernel
  have hc : intBoxLiteral.ClearParams := by unfold ClearParams; decide +kernel
  have hview : Viewable boxStore (staticBox (.shape (.basic .int))) := by
    refine .named (viewDecl_box _) fun c hc => ?_
    rw [List.mem_singleton.1 hc]
    exact viewable_basic .int
  have hknown : (staticBox (.shape (.basic .int))).EveryDecl boxPackages.Knows := by
    refine .intro (fun d args he => ?_) fun c hc => ?_
    · rw [← (StaticType.named.inj he).1]
      exact .inr ⟨_, _, holds_box⟩
    · rw [List.mem_singleton.1 hc]
      refine .intro (fun _ _ he => by cases he) fun c hc => ?_
      exact absurd hc (List.not_mem_nil (a := c))
  have hp : intBoxLiteral.Portable := ⟨hw, hc, by decide +kernel⟩
  obtain ⟨after, hfound, -⟩ :=
    returns_literalFor (hlit ▸ hview.denotes) hp {} (sound_fresh boxStore {})
  have hok : (literalFor boxStore (.static (staticBox (.shape (.basic .int)))) {}).1 =
      .ok intBoxLiteral := congrArg Prod.fst hfound
  obtain ⟨hto, hfrom⟩ := resolve_literal_inverse hr boxStore {}
  obtain ⟨back, hback, hsame⟩ := hfrom _ hknown (hlit ▸ hw)
    (hlit ▸ distinct_of_wellFormed hw hc) _ hok
  exact ⟨hr, hok, back, hback, hsame, ((hto _ hw).2 back hback).1⟩

end TypeIdentity
