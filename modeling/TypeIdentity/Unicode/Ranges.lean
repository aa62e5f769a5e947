/-! # Sets of code points

A set of code points is a list of closed ranges in increasing order, which is how a character
property is tabulated.
-/
namespace TypeIdentity.Unicode

/-- Closed ranges in increasing order, with gaps between them. -/
abbrev Ranges := List (Nat × Nat)

/-- Membership; the search ends at the first range that starts after `n`. -/
def Ranges.contains (rs : Ranges) (n : Nat) : Bool :=
  match rs with
  | [] => false
  | (lo, hi) :: rest => lo ≤ n && (n ≤ hi || Ranges.contains rest n)

end TypeIdentity.Unicode
