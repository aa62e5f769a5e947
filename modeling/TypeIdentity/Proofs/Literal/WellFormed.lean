import TypeIdentity.Literal.Printer
import TypeIdentity.Proofs.Text.Trimming

/-! # Well-formed literals

What a literal has to satisfy for its text to be read back: conditions on every node, on names,
package paths, embedded fields and variadic signatures.  They depend on how package paths are
spelled in the text; `id` spells them as they are.
-/
namespace TypeIdentity
open Text

/-- A package path that means nothing to the scanners and begins with no mark of a type. -/
structure PlainPath (path : String) : Prop where
  nonempty : path ≠ ""
  ordinary : ∀ c ∈ path.toList, IsOrdinary c
  noStar : path.toList.head? ≠ some '*'
  noEllipsis : ¬"...".toList <+: path.toList

instance (path : String) : Decidable (PlainPath path) :=
  decidable_of_iff (path ≠ "" ∧ (path.toList.all fun c => IsOrdinary c) = true ∧
      path.toList.head? ≠ some '*' ∧ ¬"...".toList <+: path.toList)
    ⟨fun ⟨hn, ho, hs, he⟩ => ⟨hn, List.all_iff_forall_prop.1 ho, hs, he⟩,
      fun ⟨hn, ho, hs, he⟩ => ⟨hn, List.all_iff_forall_prop.2 ho, hs, he⟩⟩

/-- Identifiers mean nothing to the scanners. -/
theorem PlainPath.of_isIdentifier {path : String} (h : isIdentifier path.toList = true) :
    PlainPath path := by
  refine ⟨?_, isOrdinary_of_isIdentifier h, ?_, ?_⟩
  · rintro rfl
    cases h
  · intro he
    have hstar := isIdentRest_of_isIdentifier h '*' (List.mem_of_mem_head? he)
    exact absurd hstar (by decide)
  · intro he
    exact point_not_mem_of_isIdentifier h (he.subset (by decide))

namespace Signature

/-- A variadic signature has a last parameter, and this is a slice. -/
def WellFormed (s : Signature TypeLiteral) : Prop :=
  s.variadic = true → ∃ t ∈ s.ins.getLast?, t.kind = .slice

/-- The parameters that are written without an ellipsis. -/
def plainIns {α : Type} (s : Signature α) : List α := if s.variadic then s.ins.dropLast else s.ins

/-- No parameter is written so that it begins with two points and the point before a name. -/
def Clear (spell : String → String) (s : Signature TypeLiteral) : Prop :=
  ∀ t ∈ s.plainIns, t.kind = .named → spell t.path ≠ ".."

instance (s : Signature TypeLiteral) : Decidable s.WellFormed :=
  inferInstanceAs (Decidable (_ → _))

instance (spell : String → String) (s : Signature TypeLiteral) : Decidable (s.Clear spell) :=
  inferInstanceAs (Decidable (∀ t ∈ s.plainIns, _ → _))

/-- All parameters are written alike, or the last one is a slice written with an ellipsis. -/
theorem WellFormed.params {s : Signature TypeLiteral} (h : s.WellFormed) :
    s.variadic = false ∨ ∃ init e, s.variadic = true ∧ s.ins = init ++ [.shape (.slice e)] := by
  cases hv : s.variadic with
  | false => exact .inl rfl
  | true =>
    right
    obtain ⟨t, hlast, hk⟩ := h hv
    obtain ⟨init, hins⟩ := List.getLast?_eq_some_iff.1 hlast
    rcases t with ⟨_ | _ | e | _ | _ | _ | _ | _ | _⟩ | _
    case shape.slice => exact ⟨init, e, rfl, hins⟩
    all_goals exact absurd hk (by simp [TypeLiteral.kind, Shape.kind])

end Signature

namespace TypeLiteral

/-- Named types, basic types, and pointers to them. -/
def Embeddable (t : TypeLiteral) : Prop :=
  match t.pointee with
  | named .. | shape (.basic _) => True
  | _ => False

theorem Embeddable.pointee {t : TypeLiteral} (h : t.Embeddable) :
    (∃ path name args, t.pointee = named path name args) ∨
      ∃ b, t.pointee = shape (.basic b) := by
  unfold Embeddable at h
  split at h
  · next path name args he => exact .inl ⟨path, name, args, he⟩
  · next b he => exact .inr ⟨b, he⟩
  · cases h

/-- The predeclared `error`, or a qualified name that does not denote an unsafe pointer. -/
def NameWellFormed (spell : String → String) (path name : String) (args : List TypeLiteral) :
    Prop :=
  path = "" ∧ name = "error" ∧ args = [] ∨
    path ≠ "" ∧ PlainPath (spell path) ∧ isIdentifier name.toList = true ∧
      ¬(path = "unsafe" ∧ name = "Pointer" ∧ args = [])

/-- Fields have identifiers as names, and an embedded one is called after its type. -/
def FieldWellFormed (f : Field TypeLiteral) : Prop :=
  isIdentifier f.name.toList = true ∧
    (f.embedded = true → f.type.Embeddable ∧ f.name = f.type.embeddedName)

def MethodWellFormed (m : Method TypeLiteral) : Prop :=
  isIdentifier m.name.toList = true ∧ m.signature.WellFormed

def NodeWellFormed (spell : String → String) : TypeLiteral → Prop
  | named path name args => NameWellFormed spell path name args
  | shape (.func s) => s.WellFormed
  | shape (.struct fs) => ∀ f ∈ fs, FieldWellFormed f
  | shape (.interface ms) => ∀ m ∈ ms, MethodWellFormed m
  | shape _ => True

def NodeClear (spell : String → String) : TypeLiteral → Prop
  | shape (.func s) => s.Clear spell
  | shape (.interface ms) => ∀ m ∈ ms, m.signature.Clear spell
  | _ => True

section Decide
variable (spell : String → String)

instance (t : TypeLiteral) : Decidable t.Embeddable :=
  match h : t.pointee with
  | named .. => isTrue (by simp [Embeddable, h])
  | shape s =>
    match s, h with
    | .basic _, h => isTrue (by simp [Embeddable, h])
    | .array .., h | .slice _, h | .map .., h | .chan .., h | .func _, h | .struct _, h
    | .interface _, h | .pointer _, h => isFalse (by simp [Embeddable, h])

instance (path name : String) (args : List TypeLiteral) :
    Decidable (NameWellFormed spell path name args) :=
  inferInstanceAs (Decidable (_ ∧ _ ∧ _ ∨ _ ∧ _ ∧ _ ∧ ¬(_ ∧ _ ∧ _)))

instance (f : Field TypeLiteral) : Decidable (FieldWellFormed f) :=
  inferInstanceAs (Decidable (_ ∧ (_ → _ ∧ _)))

instance (m : Method TypeLiteral) : Decidable (MethodWellFormed m) :=
  inferInstanceAs (Decidable (_ ∧ _))

instance : DecidablePred (NodeWellFormed spell)
  | named path name args => inferInstanceAs (Decidable (NameWellFormed spell path name args))
  | shape (.func s) => inferInstanceAs (Decidable s.WellFormed)
  | shape (.struct fs) => inferInstanceAs (Decidable (∀ f ∈ fs, FieldWellFormed f))
  | shape (.interface ms) => inferInstanceAs (Decidable (∀ m ∈ ms, MethodWellFormed m))
  | shape (.basic _) | shape (.array ..) | shape (.slice _) | shape (.map ..) | shape (.chan ..)
  | shape (.pointer _) => isTrue trivial

instance : DecidablePred (NodeClear spell)
  | shape (.func s) => inferInstanceAs (Decidable (s.Clear spell))
  | shape (.interface ms) => inferInstanceAs (Decidable (∀ m ∈ ms, m.signature.Clear spell))
  | named .. | shape (.basic _) | shape (.array ..) | shape (.slice _) | shape (.map ..)
  | shape (.chan ..) | shape (.pointer _) | shape (.struct _) => isTrue trivial

end Decide

/-- A condition on a literal and on all literals inside it. -/
inductive Everywhere (P : TypeLiteral → Prop) : TypeLiteral → Prop
  | intro {t : TypeLiteral} (here : P t) (inside : ∀ c ∈ t.children, Everywhere P c) :
      Everywhere P t

namespace Everywhere
variable {P Q : TypeLiteral → Prop} {t : TypeLiteral}

theorem here (h : Everywhere P t) : P t := by
  cases h with
  | intro here _ => exact here

theorem inside (h : Everywhere P t) : ∀ c ∈ t.children, Everywhere P c := by
  cases h with
  | intro _ inside => exact inside

theorem imp (h : Everywhere P t) (hpq : ∀ t, P t → Q t) : Everywhere Q t := by
  induction h with
  | intro here _ ih => exact intro (hpq _ here) ih

def check (p : TypeLiteral → Bool) (t : TypeLiteral) : Bool :=
  p t && t.children.attach.all fun c => check p c.1
termination_by sizeOf t
decreasing_by exact sizeOf_lt_of_mem_children c.2

theorem check_iff {p : TypeLiteral → Bool} :
    check p t = true ↔ Everywhere (fun t => p t = true) t := by
  have hstep (t : TypeLiteral) : check p t = true ↔
      p t = true ∧ ∀ c ∈ t.children, check p c = true := by
    rw [check]
    simp
  constructor
  · intro h
    induction t with
    | shape s ih =>
      obtain ⟨hp, hc⟩ := (hstep _).1 h
      exact intro hp fun c hm => ih c hm (hc c hm)
    | named path name args ih =>
      obtain ⟨hp, hc⟩ := (hstep _).1 h
      exact intro hp fun c hm => ih c hm (hc c hm)
  · intro h
    induction h with
    | intro here _ ih => exact (hstep _).2 ⟨here, ih⟩

instance [DecidablePred P] : DecidablePred (Everywhere P) := fun t =>
  decidable_of_iff (check (fun t => decide (P t)) t = true) (by simp [check_iff])

end Everywhere

/-- Well-formed when package paths are respelled. -/
def WellFormedAs (spell : String → String) (t : TypeLiteral) : Prop :=
  t.Everywhere (NodeWellFormed spell)

/-- What can be read back when package paths are respelled, all of them being allowed ones. -/
structure Legible (spell : String → String) (allowed : String → Prop) (t : TypeLiteral) : Prop where
  wellFormed : t.WellFormedAs spell
  clear : t.Everywhere (NodeClear spell)
  paths : t.Everywhere fun u => u.path ≠ "" → allowed u.path

theorem Legible.inside {spell : String → String} {allowed : String → Prop} {t : TypeLiteral}
    (h : t.Legible spell allowed) : ∀ c ∈ t.children, c.Legible spell allowed :=
  fun c hc => ⟨h.wellFormed.inside c hc, h.clear.inside c hc, h.paths.inside c hc⟩

def WellFormed (t : TypeLiteral) : Prop := t.WellFormedAs id

/-- No signature in the literal takes a parameter of a package `..`, unless as variadic elements. -/
def ClearParams (t : TypeLiteral) : Prop := t.Everywhere (NodeClear id)

end TypeLiteral
end TypeIdentity
