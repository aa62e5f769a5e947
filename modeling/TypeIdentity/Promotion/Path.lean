import TypeIdentity.Identifier
import TypeIdentity.View

/-! # Walks along embedded types

Members are looked for along paths of embedded types.  A path never enters a type that is on it
already, and it must not grow beyond a limit.
-/
namespace TypeIdentity.Promotion
variable {α : Type}

/-- A type on a path, with what its view tells about it. -/
structure Step (α : Type) where
  type : α
  isNamed : Bool
  isPointer : Bool

/-- The types on the way to the present one, which comes first. -/
abbrev Path (α : Type) := List (Step α)

namespace Path

def visits (g : TypeGraph α) (path : Path α) (t : α) : Bool := path.any fun s => g.same s.type t

/-- Enters a type, or fails when the path has as many types as are allowed. -/
def enter (g : TypeGraph α) (limit : Nat) (path : Path α) (t : α) (view : View α) :
    Except Error (Path α) :=
  if path.length < limit then .ok (⟨t, view.isNamed, view.isPointer⟩ :: path)
  else .error (.traversalLimit limit (g.describe t))

theorem length_of_enter {g : TypeGraph α} {limit : Nat} {path after : Path α} {t : α}
    {view : View α} (h : path.enter g limit t view = .ok after) :
    path.length < limit ∧ after.length = path.length + 1 := by
  unfold enter at h
  split at h <;> simp at h
  next hl => exact ⟨hl, h ▸ rfl⟩

/-- Number of named types on a path. -/
def crossings (path : Path α) : Nat := path.countP (·.isNamed)

/-- Whether a path goes through a pointer. -/
def throughPointer (path : Path α) : Bool := path.any (·.isPointer)

end Path
end TypeIdentity.Promotion
