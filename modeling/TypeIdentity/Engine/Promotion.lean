import TypeIdentity.Engine.Memory
import TypeIdentity.Promotion.Fields
import TypeIdentity.Promotion.Methods

/-! # Members as literals

Promoted methods and fields are reported with literals, so that the two representations of one type
give the same answers.
-/
namespace TypeIdentity.Engine

/-- A method in the method set of a type. -/
structure MethodEntry where
  name : String
  /-- A function literal, the receiver left out. -/
  signature : TypeLiteral
  pointerReceiver : Bool
  /-- Named types crossed between the type and the one that declares the method. -/
  depth : Nat
  deriving DecidableEq

namespace Memory

def countResolution : EngineM Unit := count fun c => { c with resolutions := c.resolutions + 1 }

/-- The exported methods that can be called on a type, ordered by name. -/
def methods (store : Store) (t : HostType) : EngineM (List MethodEntry) := do
  countResolution
  let promoted ← Promotion.methods store.graph (← get).config.maxTraversalDepth t
  promoted.mapM fun p => do
    let signature ← signatureLiteral store p.method.signature
    return ⟨p.method.name, signature, p.method.pointerReceiver, p.depth⟩

def method? (store : Store) (t : HostType) (name : String) : EngineM (Option MethodEntry) := do
  return (← methods store t).find? (·.name = name)

/-- The field of a type whose name is accepted. -/
def fieldBy? (store : Store) (t : HostType) (accepts : String → Bool) :
    EngineM (Option (Field TypeLiteral)) := do
  countResolution
  match ← (Promotion.field? store.graph (← get).config.maxTraversalDepth accepts t) with
  | none => return none
  | some f => return some ⟨f.name, ← literalFor store f.type, f.tag, f.embedded⟩

def field? (store : Store) (t : HostType) (name : String) : EngineM (Option (Field TypeLiteral)) :=
  fieldBy? store t (· = name)

end Memory
end TypeIdentity.Engine
