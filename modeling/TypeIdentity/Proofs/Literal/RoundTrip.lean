import TypeIdentity.Literal.Parser
import TypeIdentity.Proofs.Literal.Levels

/-! # Parsing what was printed

A parser whose services keep to what texts stand for reads every such text as the literal it stands
for, by induction on the text.  The services that remember nothing are of this kind, so that parsing
inverts the canonical rendering.
-/
namespace TypeIdentity
open Text Literal TypeLiteral Reading

/-- Services that answer with the literal that a text stands for, wherever they may answer. -/
structure Faithful {m : Type → Type} [Monad m] (o : Outcome m) (services : ParseServices m)
    (spell : String → String) (allowed : String → Prop) (R : List Char → TypeLiteral → Prop) :
    Prop where
  known : ∀ {text : List Char} {t : TypeLiteral}, R text t →
    ∀ {β : Type} (k : Option TypeLiteral → m β) (b : β), o.returns (k none) b →
      o.returns (k (some t)) b → o.returns (services.known (String.ofList text) >>= k) b
  decodePath : ∀ {path token : String}, Spells spell allowed path token →
    o.returns (services.decodePath token) path
  share : ∀ {text : List Char} {t : TypeLiteral}, R text t → o.returns (services.share t) t
  keep : ∀ {text : List Char} {t : TypeLiteral}, R text t →
    o.returns (services.keep (String.ofList text) t) t

section Parsing
variable {spell : String → String} {allowed : String → Prop} {R : List Char → TypeLiteral → Prop}
  {t : TypeLiteral} {m : Type → Type} [Monad m] [MonadExceptOf Error m] {o : Outcome m}
  {services : ParseServices m}

/-- Texts are parsed as what they stand for, with blanks around them or not, if their levels are
read so. -/
theorem returns_of_yields (hf : Faithful o services spell allowed R)
    (hR : ∀ text t, R text t → Trimmed text ∧ Yields spell allowed R (level text) t)
    {id : List Char} (h : R (trim id) t) : o.returns (parseWith services id) t := by
  generalize hn : id.length = n
  induction n using Nat.strongRecOn generalizing id t with
  | _ n ih =>
    subst hn
    obtain ⟨ht, hy⟩ := hR _ _ h
    have hparse (part : List Char) (c : TypeLiteral) (hlt : part.length < (trim id).length)
        (hc : R part c) : o.returns (parseWith services part) c := by
      refine ih part.length (Nat.lt_of_lt_of_le hlt (length_trim_le id)) ?_ rfl
      rwa [trim_of_trimmed (hR part c hc).1]
    have hread : o.returns ((level (trim id)).run
        (fun part _ => parseWith services part) services.decodePath services.share) t :=
      returns_run o hparse (fun _ _ => hf.decodePath) (fun _ _ => hf.share) hy
    rw [parseWith]
    simp only [if_neg ht.ne_nil]
    exact hf.known h _ t (o.bind hread (hf.keep h)) (o.pure t)

theorem trim_render (h : t.WellFormedAs spell) : trim (t.render spell).toList = t.write spell := by
  rw [render_eq, String.toList_ofList]
  exact trim_of_trimmed (written h).1.trimmed

/-- A faithful parser reads the text of a legible literal back, with blanks around it or not. -/
theorem returns_parseWith (hf : Faithful o services spell allowed (Printed spell allowed))
    (h : t.Legible spell allowed) {id : List Char} (hid : trim id = t.write spell) :
    o.returns (parseWith services id) t := by
  refine returns_of_yields hf ?_ ⟨h, hid⟩
  rintro _ c ⟨hc, rfl⟩
  exact ⟨(written hc.wellFormed).1.trimmed, yields_level hc fun _ _ h => h⟩

end Parsing

/-! ## Without memory -/

theorem faithful_plain {allowed : String → Prop} {R : List Char → TypeLiteral → Prop} :
    Faithful .except .plain id allowed R where
  known _ _ _ _ hnone _ := hnone
  decodePath hs := by
    rcases hs with ⟨-, -, -, rfl⟩ | ⟨rfl, rfl⟩
    · rfl
    · rfl
  share _ := rfl
  keep _ := rfl

/-- Parsing the canonical rendering of a well-formed literal yields the literal. -/
theorem parse_canonical {t : TypeLiteral} (h : t.WellFormed) (hc : t.ClearParams) :
    parse t.canonical = .ok t := by
  have hpaths : t.Everywhere fun u => u.path ≠ "" → True := h.imp fun _ _ _ => trivial
  have hl : t.Legible id fun _ => True := ⟨h, hc, hpaths⟩
  have htext : trim t.canonical.toList = t.write id := by
    rw [canonical, render_eq, String.toList_ofList]
    exact trim_of_trimmed (written h).1.trimmed
  exact returns_parseWith faithful_plain hl htext

/-- A generic parameter, a struct with a tag, and an ellipsis before a path of two points. -/
def variadicSample : TypeLiteral :=
  shape (.func ⟨[named "lib/pair" "Pair" [shape (.basic .string), shape (.slice any)],
    shape (.slice (named ".." "T" []))],
    [shape (.struct [⟨"Code", shape (.basic .int), "json:\"code,\\x5b\"", false⟩]), error], true⟩)

theorem parse_canonical_variadicSample :
    variadicSample.WellFormed ∧ variadicSample.ClearParams ∧
      parse variadicSample.canonical = .ok variadicSample := by
  have hw : variadicSample.WellFormed := by
    unfold WellFormed WellFormedAs
    decide +kernel
  have hc : variadicSample.ClearParams := by
    unfold ClearParams
    decide +kernel
  exact ⟨hw, hc, parse_canonical hw hc⟩

/-- A parameter of a type from the package `..`. -/
def parentParam : TypeLiteral := shape (.func ⟨[named ".." "T" []], [], false⟩)

/-- The points before the name are read as an ellipsis, and the name then lacks its package. -/
theorem parse_parentParam : parentParam.WellFormed ∧
    parse parentParam.canonical = .error (.unsupported (.unresolvedParameter "T")) := by
  have hw : parentParam.WellFormed := by
    unfold WellFormed WellFormedAs
    decide +kernel
  have hp : parse parentParam.canonical = .error (.unsupported (.unresolvedParameter "T")) := by
    decide +kernel
  exact ⟨hw, hp⟩

end TypeIdentity
