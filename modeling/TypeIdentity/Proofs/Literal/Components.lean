import TypeIdentity.Proofs.Literal.Written
import TypeIdentity.Proofs.Text.Leads

/-! # What is known of the text of a component

Whatever stands around a component, only a few facts about its text matter when the type it is a
component of is read.  They are kept apart from how the text comes about: a component need not be
written as it is printed.
-/
namespace TypeIdentity.Literal
open Text Scan TypeLiteral

variable {spell : String → String} {allowed : String → Prop} {R : List Char → TypeLiteral → Prop}

/-! ## Points before a name -/

/-- A path other than `..` does not make a name begin with an ellipsis. -/
theorem after?_ellipsis_named {path name : String} {args : List TypeLiteral}
    (h : NameWellFormed spell path name args) (hc : spell path ≠ "..") :
    after? "..." (write spell (named path name args)) = none := by
  obtain ⟨more, htext, -⟩ := write_named_eq spell path name args
  cases ha : after? "..." (write spell (named path name args)) with
  | none => rfl
  | some rest =>
    exfalso
    have he := eq_append_of_after? ha
    rw [htext] at he
    rcases h with ⟨rfl, rfl, -⟩ | ⟨hne, hpath, hname, -⟩
    · have hq : qualified spell "" "error" = "error".toList := rfl
      rw [hq] at he
      simp at he
    · obtain ⟨c, tail, hn⟩ := List.exists_cons_of_ne_nil (ne_nil_of_isIdentifier hname)
      have hpoint : c ≠ '.' := by
        rintro rfl
        exact point_not_mem_of_isIdentifier hname (by simp [hn])
      rw [qualified, if_neg hne, hn] at he
      have hempty : (spell path).toList ≠ [] := by simpa using hpath.nonempty
      rcases hp : (spell path).toList with _ | ⟨p, _ | ⟨q, _ | ⟨r, tail'⟩⟩⟩
      · exact hempty hp
      · simp [hp, hpoint] at he
      · simp only [hp] at he
        obtain ⟨rfl, rfl, -⟩ : p = '.' ∧ q = '.' ∧ _ := by simpa using he
        exact hc (String.toList_inj.1 hp)
      · rw [hp] at he
        obtain ⟨rfl, rfl, rfl, -⟩ : p = '.' ∧ q = '.' ∧ r = '.' ∧ _ := by simpa using he
        exact hpath.noEllipsis ⟨tail', by rw [hp]; rfl⟩

theorem after?_ellipsis_first {text : List Char}
    (h : ∃ c rest, text = c :: rest ∧ (c.isAlpha = true ∨ c ∈ ['[', '*', '<'])) :
    after? "..." text = none := by
  obtain ⟨c, rest, rfl, hc⟩ := h
  cases ha : after? "..." (c :: rest) with
  | none => rfl
  | some tail =>
    obtain rfl : c = '.' := (List.cons.inj (eq_append_of_after? ha)).1
    exact absurd hc (by decide)

theorem after?_ellipsis_shape (spell : String → String) (s : Shape TypeLiteral) :
    after? "..." (write spell (shape s)) = none :=
  after?_ellipsis_first (first_shape spell s)

/-! ## Components -/

/-- The text of `u` is read as `t`, and the text of the element of a slice as the element. -/
structure Component (spell : String → String) (R : List Char → TypeLiteral → Prop)
    (u t : TypeLiteral) : Prop where
  written : Written spell u
  reads : R (u.write spell) t
  element : ∀ e, u = shape (.slice e) → ∃ e', t = shape (.slice e') ∧ R (e.write spell) e'

theorem Component.standalone {u t : TypeLiteral} (h : Component spell R u t) :
    Standalone (u.write spell) := h.written.1

/-- The text of `u` can be read as `t` wherever it stands as a component. -/
structure Reads (spell : String → String) (R : List Char → TypeLiteral → Prop)
    (u t : TypeLiteral) : Prop where
  written : Written spell u
  reads : R (u.write spell) t
  /-- The element of a slice is read without the brackets after an ellipsis. -/
  element : ∀ e, u = shape (.slice e) → ∃ e', t = shape (.slice e') ∧ R (e.write spell) e'
  /-- What is embedded has no space outside of brackets. -/
  word : t.Embeddable → Nested [' '] (u.write spell)
  /-- After a name nothing is taken for an equals sign. -/
  entry : Nested [' '] (u.write spell) ∨ (u.write spell).head? ≠ some '='
  /-- Only a name of the package `..` is taken for an ellipsis. -/
  dots : (t.kind = .named → spell t.path ≠ "..") → after? "..." (u.write spell) = none

namespace Reads
variable {u t : TypeLiteral}

theorem standalone (h : Reads spell R u t) : Standalone (u.write spell) := h.written.1

theorem component (h : Reads spell R u t) : Component spell R u t := ⟨h.written, h.reads, h.element⟩

end Reads

/-- A legible literal is read from the text in which it is printed. -/
def Printed (spell : String → String) (allowed : String → Prop) (text : List Char)
    (t : TypeLiteral) : Prop :=
  t.Legible spell allowed ∧ text = t.write spell

theorem reads_self {t : TypeLiteral} (hR : ∀ text c, Printed spell allowed text c → R text c)
    (h : t.Legible spell allowed) : Reads spell R t t where
  written := TypeLiteral.written h.wellFormed
  reads := hR _ _ ⟨h, rfl⟩
  element := by
    rintro e rfl
    exact ⟨e, rfl, hR _ _ ⟨h.inside e (List.mem_singleton_self e), rfl⟩⟩
  word := word_of_embeddable h.wellFormed
  entry := word_or_head?_ne h.wellFormed
  dots := by
    intro hc
    cases t with
    | named path name args => exact after?_ellipsis_named h.wellFormed.here (hc rfl)
    | shape s => exact after?_ellipsis_shape spell s

end TypeIdentity.Literal
