import TypeIdentity.Engine.Config
import TypeIdentity.Engine.Counters
import TypeIdentity.HostType
import TypeIdentity.Literal.Table
import TypeIdentity.Literal.Wrapped

/-! # The literals of host types

The engine builds the literal of a host type from its views, remembers it by the identity of the
type, and keeps one literal for each canonical text.  What it has counted and remembered before a
failure stays.
-/
namespace TypeIdentity.Engine

structure Memory where
  config : Config := {}
  tables : ParseTables := {}
  identities : Std.HashMap HostType TypeLiteral := ∅
  counters : Counters := {}

/-- Computations that may fail but keep what the engine has learnt. -/
abbrev EngineM := ExceptT Error (StateM Memory)

namespace Memory

def count (f : Counters → Counters) : EngineM Unit :=
  modify fun m => { m with counters := f m.counters }

/-- The remembered literal of a type; the type is not looked at when nothing is remembered. -/
def identity? (memory : Memory) (t : HostType) : Option TypeLiteral :=
  if memory.identities.isEmpty then none else memory.identities[t]?

theorem identity?_eq (memory : Memory) (t : HostType) :
    memory.identity? t = memory.identities[t]? := by
  unfold identity?
  split
  · next h => exact (Std.HashMap.getElem?_of_isEmpty h).symm
  · rfl

def rememberedCount (memory : Memory) : Nat := memory.identities.size

/-- Parses a canonical or wrapped id. -/
def parse (id : String) : EngineM TypeLiteral := do
  count fun c => { c with parses := c.parses + 1 }
  let (answer, tables) := (← get).tables.parse ⟨true, true⟩ id
  modify fun m => { m with tables }
  answer

/-- The literal that is kept for the canonical text of another one. -/
def share (lit : TypeLiteral) : EngineM TypeLiteral := do
  let (stored, literals) := (← get).tables.literals.intern lit
  modify fun m => { m with tables := { m.tables with literals } }
  return stored

/-- Remembers the literal of a type unless one is remembered already. -/
def remember (t : HostType) (lit : TypeLiteral) : EngineM TypeLiteral :=
  modifyGet fun m =>
    let (known?, identities) := m.identities.getThenInsertIfNew? t lit
    (known?.getD lit, { m with identities })

def parseArgs (text : String) : EngineM (List TypeLiteral) := do
  if text.isEmpty then return []
  else (← Scan.splitParts .comma text.toList).mapM fun part => parse (String.ofList part)

/-- The literal of a host type.  The underlying type of a named type has no part in it. -/
def literalFor (store : Store) (t : HostType) : EngineM TypeLiteral := do
  match (← get).identity? t with
  | some lit =>
    count fun c => { c with identityHits := c.identityHits + 1 }
    return lit
  | none =>
    count fun c => { c with identityMisses := c.identityMisses + 1 }
    let lit ← match _hv : store.view t with
      | .error e => throw e
      | .ok (.shape s) => TypeLiteral.shape <$> s.attach.traverse fun c => literalFor store c.1
      | .ok (.named n) =>
        TypeLiteral.named n.path n.name <$> match _ha : n.args with
          | .resolved args => args.attach.mapM fun c => literalFor store c.1
          | .printed text => parseArgs text
    remember t (← share lit)
termination_by sizeOf t
decreasing_by
  · exact Store.sizeOf_lt_of_view_shape _hv c.2
  · exact Store.sizeOf_lt_of_view_args _hv _ha c.2

def literalsFor (store : Store) (types : List HostType) : EngineM (List TypeLiteral) :=
  types.mapM (literalFor store)

def signatureLiteral (store : Store) (s : Signature HostType) : EngineM TypeLiteral := do
  return .shape (.func (← s.traverse (literalFor store)))

def wrapPath (path : String) : EngineM String := do
  let (token, codec) := (← get).tables.codec.wrap path
  modify fun m => { m with tables := { m.tables with codec } }
  return token

def unwrapPath (token : String) : EngineM String := do
  let (answer, codec) := (← get).tables.codec.unwrap token
  modify fun m => { m with tables := { m.tables with codec } }
  answer

/-- The wrapped id of a host type, which `parse` reads again. -/
def wrapped (store : Store) (t : HostType) : EngineM String := do
  let lit ← literalFor store t
  let (id, codec) := lit.wrapped (← get).tables.codec
  modify fun m => { m with tables := { m.tables with codec } }
  return id

/-- A host type with its packages called by short names. -/
def display (store : Store) (name : String → String) (t : HostType) : EngineM String := do
  return (← literalFor store t).render name

/-- Forgets everything but the configuration. -/
def reset (memory : Memory) : Memory := { config := memory.config }

end Memory
end TypeIdentity.Engine
