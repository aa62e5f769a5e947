import TypeIdentity.Text.Blank
import TypeIdentity.Text.Numeral

/-! # Engine configuration

Two numbers may be set from the environment; a value that is no numeral of 64 bits is ignored.
-/
namespace TypeIdentity.Engine
open Text

structure Config where
  /-- How many types a path of embedded types may have. -/
  maxTraversalDepth : Nat := 256
  /-- From how many types on a batch counts as large; the answers do not depend on it. -/
  parallelThreshold : Nat := 64
  deriving DecidableEq, Repr

namespace Config

def maxTraversalDepthVariable : String := "TYPEX_MAX_TRAVERSAL_DEPTH"

def parallelThresholdVariable : String := "TYPEX_PARALLEL_THRESHOLD"

/-- The number in a text, blanks around it left out. -/
def number? (text : String) : Option Nat := (readNumeral 10 wordBound (trim text.toList)).toOption

/-- The defaults, overridden by the variables that are set to numbers. -/
def ofEnvironment (setting : String → Option String) : Config :=
  let default : Config := {}
  let value (name : String) (default : Nat) : Nat := ((setting name).bind number?).getD default
  ⟨value maxTraversalDepthVariable default.maxTraversalDepth,
    value parallelThresholdVariable default.parallelThreshold⟩

end Config
end TypeIdentity.Engine
