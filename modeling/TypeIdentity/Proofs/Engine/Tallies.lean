import TypeIdentity.Proofs.Engine.Calls

/-! # An engine that tallies its lookups

The engine beside a tally: how often the literal of a host type was asked for, by a call or for a
component of a type that was asked for, and how often the answer was an error.  The tally looks at
nothing that the engine counts or remembers.
-/
namespace TypeIdentity.Engine

/-- The lookups of literals that were begun, and those of them that failed. -/
structure Tally where
  begun : Nat := 0
  failed : Nat := 0
  deriving DecidableEq, Repr

/-- What the engine has learnt, with the tally of its lookups. -/
structure Account where
  memory : Memory
  tally : Tally := {}

abbrev AccountM := ExceptT Error (StateM Account)

namespace Account
open Memory (Call)

/-- A step of the engine in which no literal of a host type is looked up. -/
def step {α : Type} (x : EngineM α) : AccountM α := fun account =>
  ((x account.memory).1, { account with memory := (x account.memory).2 })

/-- Tallies the end of a lookup, which may have failed. -/
def conclude {α : Type} : Except Error α × Account → Except Error α × Account
  | (.ok v, account) => (.ok v, account)
  | (.error e, account) => (.error e, { account with tally.failed := account.tally.failed + 1 })

/-- Tallies a lookup. -/
def lookup {α : Type} (x : AccountM α) : AccountM α := fun account =>
  conclude (x { account with tally.begun := account.tally.begun + 1 })

/-- Looks the literal of a type up, and builds it where it is not known yet. -/
def retrieve (t : HostType) (build : AccountM TypeLiteral) : AccountM TypeLiteral := lookup do
  match (← get).memory.identity? t with
  | some lit =>
    step (Memory.count fun c => { c with identityHits := c.identityHits + 1 })
    return lit
  | none =>
    step (Memory.count fun c => { c with identityMisses := c.identityMisses + 1 })
    let lit ← build
    step (Memory.share lit >>= Memory.remember t)

/-- The literal of a host type, the lookups of its components tallied like its own. -/
def literalFor (store : Store) (t : HostType) : AccountM TypeLiteral :=
  retrieve t <| match _hv : store.view t with
    | .error e => throw e
    | .ok (.shape s) => TypeLiteral.shape <$> s.attach.traverse fun c => literalFor store c.1
    | .ok (.named n) =>
      TypeLiteral.named n.path n.name <$> match _ha : n.args with
        | .resolved args => args.attach.mapM fun c => literalFor store c.1
        | .printed text => step (Memory.parseArgs text)
termination_by sizeOf t
decreasing_by
  · exact Store.sizeOf_lt_of_view_shape _hv c.2
  · exact Store.sizeOf_lt_of_view_args _hv _ha c.2

def build (store : Store) (t : HostType) : AccountM TypeLiteral :=
  match store.view t with
  | .error e => throw e
  | .ok (.shape s) => .shape <$> s.traverse (literalFor store)
  | .ok (.named n) =>
    .named n.path n.name <$> match n.args with
      | .resolved args => args.mapM (literalFor store)
      | .printed text => step (Memory.parseArgs text)

theorem literalFor_eq (store : Store) (t : HostType) :
    literalFor store t = retrieve t (build store t) := by
  rw [literalFor, build]
  congr
  split
  · next hv => simp only [hv]
  · next hv => simp only [hv, Shape.attach_traverse]
  · next n hv =>
    simp only [hv]
    split
    · next ha => simp only [ha, attach_mapM]
    · next ha => simp only [ha]

/-! ## Calls -/

def signatureLiteral (store : Store) (s : Signature HostType) : AccountM TypeLiteral := do
  return .shape (.func (← s.traverse (literalFor store)))

def reportMethod (store : Store) (m : Promotion.Promoted HostType) : AccountM MethodEntry := do
  let signature ← signatureLiteral store m.method.signature
  return ⟨m.method.name, signature, m.method.pointerReceiver, m.depth⟩

def methods (store : Store) (t : HostType) : AccountM (List MethodEntry) := do
  let promoted ← step do
    Memory.countResolution
    Promotion.methods store.graph (← get).config.maxTraversalDepth t
  promoted.mapM (reportMethod store)

def method? (store : Store) (t : HostType) (name : String) : AccountM (Option MethodEntry) := do
  return (← methods store t).find? (·.name = name)

def reportField (store : Store) : Option (Field HostType) → AccountM (Option (Field TypeLiteral))
  | none => return none
  | some f => return some ⟨f.name, ← literalFor store f.type, f.tag, f.embedded⟩

def fieldBy? (store : Store) (t : HostType) (accepts : String → Bool) :
    AccountM (Option (Field TypeLiteral)) := do
  let found ← step do
    Memory.countResolution
    Promotion.field? store.graph (← get).config.maxTraversalDepth accepts t
  reportField store found

def wrapped (store : Store) (t : HostType) : AccountM String := do
  let lit ← literalFor store t
  step do
    let (id, codec) := lit.wrapped (← get).tables.codec
    modify fun m => { m with tables := { m.tables with codec } }
    return id

def display (store : Store) (name : String → String) (t : HostType) : AccountM String := do
  return (← literalFor store t).render name

/-- Answers a call as the engine does, a batch in its order; a reset begins a new tally. -/
def respond : Call → AccountM (List TypeLiteral)
  | .literalize store t => ([·]) <$> literalFor store t
  | .literalizeAll store types => types.mapM (literalFor store)
  | .wrapped store t => (fun _ => []) <$> wrapped store t
  | .display store name t => (fun _ => []) <$> display store name t
  | .methods store t => (fun _ => []) <$> methods store t
  | .method? store t name => (fun _ => []) <$> method? store t name
  | .fieldBy? store t accepts => (fun _ => []) <$> fieldBy? store t accepts
  | .reset => fun account => (.ok [], { memory := account.memory.reset })
  | call => step (Memory.respond call)

/-- The account after a call, which may have failed. -/
def after (account : Account) (call : Call) : Account := (respond call account).2

/-- The account after a sequence of calls that began with nothing but the configuration. -/
def reached (config : Config) (calls : List Call) : Account :=
  calls.foldl after { memory := { config } }

end Account
end TypeIdentity.Engine
