import TypeIdentity.RuntimeType.Basic

/-! # Identity of runtime types

Two runtime types are the same exactly when they are equal once nodes are reduced to their names; a
digest that the same types share finds them in a table.
-/
namespace TypeIdentity

/-- What counts of a node when types are compared. -/
def Node.nominal (n : Node) : Node := ⟨0, n.path, n.name⟩

namespace RuntimeType

/-- The type with every node reduced to its name. -/
def nominal : RuntimeType → RuntimeType
  | shape s => shape (s.attach.mapChildren fun c => nominal c.1)
  | named node => named node.nominal
termination_by t => sizeOf t
decreasing_by exact sizeOf_lt_of_mem_children c.2

theorem same_iff {t u : RuntimeType} : t.same u = true ↔ t.nominal = u.nominal := by
  induction t generalizing u with
  | shape s ih =>
    cases u <;> simp only [same, nominal, shape.injEq, reduceCtorEq, Bool.false_eq_true]
    rw [Shape.agreeOn_eq same, Shape.attach_mapChildren, Shape.attach_mapChildren]
    exact Shape.agree_iff_map fun a ha b => ih a ha
  | named => cases u <;> simp [same, nominal, Node.nominal]

/-- A number that types which are the same have in common. -/
def digest : RuntimeType → UInt64
  | shape s => hash (s.attach.mapChildren fun c => digest c.1)
  | named node => hash (node.path, node.name)
termination_by t => sizeOf t
decreasing_by exact sizeOf_lt_of_mem_children c.2

theorem digest_nominal (t : RuntimeType) : t.nominal.digest = t.digest := by
  induction t with
  | shape s ih =>
    rw [nominal, digest, digest, Shape.attach_mapChildren, Shape.attach_mapChildren,
      Shape.attach_mapChildren, Shape.mapChildren_mapChildren, Shape.mapChildren_congr ih]
  | named => simp [nominal, digest, Node.nominal]

theorem digest_eq_of_same {t u : RuntimeType} (h : t.same u = true) : t.digest = u.digest := by
  rw [← digest_nominal t, same_iff.1 h, digest_nominal]

end RuntimeType
end TypeIdentity
