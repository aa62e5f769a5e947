import TypeIdentity.Promotion.Walk

/-! # Promoted methods

A name is promoted when no field on the walk has it, exactly one candidate is the shallowest, and
that one does not need a pointer that is not there.
-/
namespace TypeIdentity.Promotion
variable {α : Type}

/-- A promoted method and its depth. -/
structure Promoted (α : Type) where
  method : DeclaredMethod α
  depth : Nat

/-- Methods of the query itself are at depth 0, also when the query is a pointer. -/
def ownDepth (g : TypeGraph α) (query : α) : Except Error Nat := do
  match ← g.view query with
  | .named _ => return 1
  | .shape (.pointer e) => if (← g.view e).isNamed then return 1 else return 0
  | _ => return 0

/-- The only one of some candidates that no other is as shallow as. -/
def shallowest? (candidates : List (Candidate α)) : Option (Candidate α) :=
  match (candidates.map (·.depth)).min? with
  | none => none
  | some depth =>
    match candidates.filter (·.depth = depth) with
    | [c] => some c
    | _ => none

namespace Found

/-- The promoted method of a name. -/
def promoted? (found : Found α) (name : String) : Option (Promoted α) :=
  if name ∈ found.fields then none
  else match shallowest? (found.candidates.filter (·.method.name = name)) with
    | none => none
    | some c =>
      if c.method.pointerReceiver && !c.throughPointer then none else some ⟨c.method, c.depth⟩

/-- The promoted methods, ordered by name. -/
def promoted (found : Found α) : List (Promoted α) :=
  let names := (found.candidates.map (·.method.name)).eraseDups.mergeSort fun a b => !(b < a)
  names.filterMap found.promoted?

end Found

/-- The promoted methods of a type. -/
def methods (g : TypeGraph α) (limit : Nat) (query : α) : Except Error (List (Promoted α)) := do
  let base ← ownDepth g query
  let found ← Walk.run g limit base ⟨[.enter query], [], #[], #[]⟩
  return found.promoted

end TypeIdentity.Promotion
