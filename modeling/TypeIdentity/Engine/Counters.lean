/-! # Engine counters

Counters of what the engine has done since it was created or reset.
-/
namespace TypeIdentity.Engine

structure Counters where
  identityHits : Nat := 0
  identityMisses : Nat := 0
  parses : Nat := 0
  resolutions : Nat := 0
  deriving DecidableEq, Repr

/-- The share of hits; zero when nothing was counted. -/
def Counters.hitRate (c : Counters) : Float :=
  let total := c.identityHits + c.identityMisses
  if total = 0 then 0 else c.identityHits.toFloat / total.toFloat

end TypeIdentity.Engine
