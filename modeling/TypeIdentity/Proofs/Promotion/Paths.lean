import TypeIdentity.Promotion.Methods
import TypeIdentity.Proofs.Promotion.Walks

/-! # Embedding paths

A path leads from a type to the types whose members may be promoted to it, and it may come back to
types that it has met.  The methods at the ends of paths are candidates; a candidate is told by the
choices made on its path and by the position of its method.
-/
namespace TypeIdentity
variable {α : Type} {g : TypeGraph α}

/-- The methods that a type offers by itself: declared ones, or those listed in an interface. -/
def View.offered : View α → List (DeclaredMethod α)
  | named n => n.methods
  | shape (.interface ms) => ms.map (·.declared)
  | shape _ => []

def View.fieldNames : View α → List String
  | shape (.struct fs) => fs.map (·.name)
  | _ => []

namespace Promotion

/-- One step of a path, from a struct by the position of the embedded field. -/
inductive Hop (g : TypeGraph α) : α → Nat → α → Prop
  | underlying {t : α} {n : NamedView α} (hv : g.view t = .ok (.named n)) : Hop g t 0 n.underlying
  | embedded {t : α} {fs : List (Field α)} {i : Nat} {f : Field α}
      (hv : g.view t = .ok (.shape (.struct fs))) (hf : fs[i]? = some f) (he : f.embedded = true) :
      Hop g t i f.type
  | pointee {t e : α} {v : View α} (hv : g.view t = .ok (.shape (.pointer e)))
      (he : g.view e = .ok v) (hp : v.isPointer = false) (hi : g.isInterface e = .ok false) :
      Hop g t 0 e

/-- A path from the query, by its choices and its types, the last ones first. -/
inductive Trail (g : TypeGraph α) (query : α) : List Nat → Path α → Prop
  | start {v : View α} (hv : g.view query = .ok v) : Trail g query [] [stepOf query v]
  | hop {choices : List Nat} {path : Path α} {s : Step α} {i : Nat} {t : α} {v : View α}
      (h : Trail g query choices (s :: path)) (hh : Hop g s.type i t) (hv : g.view t = .ok v) :
      Trail g query (i :: choices) (stepOf t v :: s :: path)

/-- How many named types at the beginning of a path do not count: one when the query is named or
points to a named type. -/
def ownNamed (g : TypeGraph α) (query : α) : Nat :=
  match g.view query with
  | .ok (.named _) => 1
  | .ok (.shape (.pointer e)) =>
    match g.view e with
    | .ok (.named _) => 1
    | _ => 0
  | _ => 0

theorem ownNamed_eq {query : α} {base : Nat} (h : ownDepth g query = .ok base) :
    ownNamed g query = base := by
  unfold ownDepth at h
  unfold ownNamed
  cases hv : g.view query with
  | error e => rw [hv] at h; cases h
  | ok v =>
    rw [hv] at h
    rcases v with (_ | _ | _ | _ | _ | _ | _ | _ | e) | n
    case shape.pointer =>
      cases he : g.view e with
      | error x => simp [bind, Except.bind, he] at h
      | ok w =>
        cases w <;> simp [bind, Except.bind, he, pure, Except.pure, View.isNamed] at h <;>
          simp [he, h]
    all_goals exact Except.ok.inj h

/-- An exported method at the end of a path, with its depth. -/
inductive Offers (g : TypeGraph α) (query : α) : List Nat × Nat → Candidate α → Prop
  | intro {choices : List Nat} {path : Path α} {s : Step α} {v : View α} {i : Nat}
      {m : DeclaredMethod α} (ht : Trail g query choices (s :: path)) (hv : g.view s.type = .ok v)
      (hm : v.offered[i]? = some m) (he : isExported m.name = true) :
      Offers g query (choices, i) ⟨m, Path.crossings (s :: path) - ownNamed g query,
        Path.throughPointer (s :: path)⟩

end Promotion
end TypeIdentity
