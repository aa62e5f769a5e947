import TypeIdentity.Text.Lead

/-! # Channel directions

A channel type is written as the words for its direction, a space and its element type.
-/
namespace TypeIdentity

inductive Direction
  | send | recv | both
  deriving DecidableEq, Hashable, Repr

namespace Direction

/-- The words before the element type, with the space that ends them. -/
def lead : Direction → String
  | send => "chan<- "
  | recv => "<-chan "
  | both => "chan "

/-- The direction whose words begin a text, and the text after them. -/
def ofLead? (text : List Char) : Option (Direction × List Char) :=
  [send, recv, both].findSome? fun dir => (Text.after? dir.lead text).map (dir, ·)

theorem length_of_ofLead? {text rest : List Char} {dir : Direction}
    (h : ofLead? text = some (dir, rest)) : rest.length < text.length := by
  obtain ⟨d, -, hd⟩ := List.exists_of_findSome?_eq_some h
  obtain ⟨r, hr, he⟩ := Option.map_eq_some_iff.1 hd
  obtain ⟨-, rfl⟩ := Prod.mk.inj he
  have := Text.length_of_after? hr
  have : 0 < d.lead.length := by cases d <;> decide
  omega

end Direction
end TypeIdentity
