import TypeIdentity.Proofs.Engine.Members
import TypeIdentity.Proofs.Guarantee

/-! # Calls of the engine

The engine is asked for one thing after the other until it is reset, and all that it does is put
together from a few steps.  What each of these steps keeps is kept by every call.
-/
namespace TypeIdentity.Engine.Memory
open Promotion
variable {store : Store} {t : HostType}

/-- Parses an id with the literals of the engine and its codec or another one. -/
def parseWithCodec (codec? : Option PathCodec) (id : String) : EngineM TypeLiteral := fun memory =>
  let (answer, tables) := ParseTables.parse ⟨true, true⟩ id
    { memory.tables with codec := codec?.getD memory.tables.codec }
  let codec := if codec?.isSome then memory.tables.codec else tables.codec
  (answer, { memory with tables := { tables with codec } })

theorem parse_run (id : String) (memory : Memory) : ∃ counters,
    parse id memory = parseWithCodec none id { memory with counters } := ⟨_, rfl⟩

/-- What the engine can be asked for.  A host type comes with the store in which it is looked at; a
parser that shares the literals of the engine has the codec of the engine or another one, in
whatever state. -/
inductive Call
  | parse (id : String)
  | parseWithCodec (codec? : Option PathCodec) (id : String)
  | codec (call : PathCodec.Call)
  | literalize (store : Store) (t : HostType)
  | literalizeAll (store : Store) (types : List HostType)
  | wrapped (store : Store) (t : HostType)
  | display (store : Store) (name : String → String) (t : HostType)
  | methods (store : Store) (t : HostType)
  | method? (store : Store) (t : HostType) (name : String)
  | fieldBy? (store : Store) (t : HostType) (accepts : String → Bool)
  | reset

/-- The literals that a call hands out when it succeeds: those of ids and of host types. -/
def respond : Call → EngineM (List TypeLiteral)
  | .parse id => ([·]) <$> Memory.parse id
  | .parseWithCodec codec? id => ([·]) <$> Memory.parseWithCodec codec? id
  | .codec call => do
    modify fun m => { m with tables := { m.tables with codec := m.tables.codec.after call } }
    return []
  | .literalize store t => ([·]) <$> literalFor store t
  | .literalizeAll store types => literalsFor store types
  | .wrapped store t => (fun _ => []) <$> Memory.wrapped store t
  | .display store name t => (fun _ => []) <$> Memory.display store name t
  | .methods store t => (fun _ => []) <$> Memory.methods store t
  | .method? store t name => (fun _ => []) <$> Memory.method? store t name
  | .fieldBy? store t accepts => (fun _ => []) <$> Memory.fieldBy? store t accepts
  | .reset => (fun _ => []) <$> modify Memory.reset

/-- The memory after a call, which may have failed. -/
def after (memory : Memory) (call : Call) : Memory := (respond call memory).2

/-- The memory after a sequence of calls that began with nothing but the configuration. -/
def reached (config : Config) (calls : List Call) : Memory := calls.foldl after { config }

/-! ## What lasts until a reset -/

/-- Every step of the engine, short of a reset, keeps what is guaranteed. -/
structure Lasting (g : Guarantee EngineM) : Prop where
  lift {α : Type} (x : Except Error α) : g.ensures (liftM x : EngineM α) fun _ => True
  get {α : Type} {k : Memory → EngineM α} (h : ∀ memory, g.ensures (k memory) fun _ => True) :
    g.ensures (get >>= k) fun _ => True
  count (f : Counters → Counters) : g.ensures (count f) fun _ => True
  codec (f : PathCodec → PathCodec) : g.ensures
    (modify fun m => { m with tables := { m.tables with codec := f m.tables.codec } }) fun _ => True
  parse (codec? : Option PathCodec) (id : String) :
    g.ensures (parseWithCodec codec? id) fun _ => True
  settle (t : HostType) (lit : TypeLiteral) : g.ensures (share lit >>= remember t) fun _ => True

section Lasting
variable {g : Guarantee EngineM} (hg : Lasting g)
include hg

theorem lasts_parse (id : String) : g.ensures (parse id) fun _ => True :=
  g.bind (hg.count _) fun _ _ => hg.parse none id

theorem lasts_parseArgs (text : String) : g.ensures (parseArgs text) fun _ => True := by
  unfold parseArgs
  split
  · exact g.pure trivial
  · refine g.bind (hg.lift _) fun parts _ => ?_
    exact g.imp (g.mapM_pairs fun part _ => lasts_parse hg _) fun _ _ => trivial

theorem lasts_retrieve {build : EngineM TypeLiteral} (hb : g.ensures build fun _ => True) :
    g.ensures (retrieve t build) fun _ => True := by
  refine hg.get fun memory => ?_
  cases memory.identity? t with
  | some lit => exact g.bind (hg.count _) fun _ _ => g.pure trivial
  | none => exact g.bind (hg.count _) fun _ _ => g.bind hb fun lit _ => hg.settle t lit

theorem lasts_build
    (hc : ∀ c : HostType, sizeOf c < sizeOf t → g.ensures (literalFor store c) fun _ => True) :
    g.ensures (build store t) fun _ => True := by
  rw [build]
  cases hv : store.view t with
  | error e => exact hg.lift (.error e)
  | ok view =>
    cases view with
    | shape s =>
      have hchildren : ∀ c ∈ s.children, g.ensures (literalFor store c) fun _ => True :=
        fun c hm => hc c (Store.sizeOf_lt_of_view_shape hv hm)
      exact g.map (g.traverse hchildren) fun _ _ => trivial
    | named n =>
      dsimp only
      cases ha : n.args with
      | resolved args =>
        have hargs : ∀ c ∈ args, g.ensures (literalFor store c) fun _ => True :=
          fun c hm => hc c (Store.sizeOf_lt_of_view_args hv ha hm)
        exact g.map (g.mapM_pairs hargs) fun _ _ => trivial
      | printed text => exact g.map (lasts_parseArgs hg text) fun _ _ => trivial

theorem lasts_literalFor (store : Store) (t : HostType) :
    g.ensures (literalFor store t) fun _ => True := by
  generalize hn : sizeOf t = n
  induction n using Nat.strongRecOn generalizing t with
  | _ n ih =>
    subst hn
    rw [literalFor_eq]
    exact lasts_retrieve hg (lasts_build hg fun c hc => ih _ hc c rfl)

theorem lasts_literalsFor (store : Store) (types : List HostType) :
    g.ensures (literalsFor store types) fun _ => True :=
  g.imp (g.mapM_pairs fun t _ => lasts_literalFor hg store t) fun _ _ => trivial

theorem lasts_wrapped (store : Store) (t : HostType) :
    g.ensures (wrapped store t) fun _ => True := by
  refine g.bind (lasts_literalFor hg store t) fun lit _ => hg.get fun memory => ?_
  exact g.bind (hg.codec fun _ => (lit.wrapped memory.tables.codec).2) fun _ _ => g.pure trivial

theorem lasts_reportMethod (store : Store) (m : Promoted HostType) :
    g.ensures (reportMethod store m) fun _ => True := by
  have hsignature : g.ensures (signatureLiteral store m.method.signature) fun _ => True :=
    g.bind (g.traverse_signature fun t _ => lasts_literalFor hg store t) fun _ _ => g.pure trivial
  exact g.bind hsignature fun _ _ => g.pure trivial

theorem lasts_methods (store : Store) (t : HostType) :
    g.ensures (methods store t) fun _ => True := by
  refine g.bind (hg.count _) fun _ _ => hg.get fun memory => ?_
  refine g.bind (hg.lift _) fun ms _ => ?_
  exact g.imp (g.mapM_pairs fun m _ => lasts_reportMethod hg store m) fun _ _ => trivial

theorem lasts_fieldBy? (store : Store) (t : HostType) (accepts : String → Bool) :
    g.ensures (fieldBy? store t accepts) fun _ => True := by
  refine g.bind (hg.count _) fun _ _ => hg.get fun memory => ?_
  refine g.bind (hg.lift _) fun found _ => ?_
  cases found with
  | none => exact g.pure trivial
  | some f => exact g.bind (lasts_literalFor hg store f.type) fun _ _ => g.pure trivial

theorem lasts_respond {call : Call} (h : call ≠ .reset) :
    g.ensures (respond call) fun _ => True := by
  have hmap {α β : Type} {x : EngineM α} (f : α → β) (hx : g.ensures x fun _ => True) :
      g.ensures (f <$> x) fun _ => True := g.map hx fun _ _ => trivial
  cases call with
  | parse id => exact hmap _ (lasts_parse hg id)
  | parseWithCodec codec? id => exact hmap _ (hg.parse codec? id)
  | codec call => exact g.bind (hg.codec fun c => c.after call) fun _ _ => g.pure trivial
  | literalize store t => exact hmap _ (lasts_literalFor hg store t)
  | literalizeAll store types => exact lasts_literalsFor hg store types
  | wrapped store t => exact hmap _ (lasts_wrapped hg store t)
  | display store name t =>
    exact hmap _ (hmap _ (lasts_literalFor hg store t))
  | methods store t => exact hmap _ (lasts_methods hg store t)
  | method? store t name => exact hmap _ (hmap _ (lasts_methods hg store t))
  | fieldBy? store t accepts => exact hmap _ (lasts_fieldBy? hg store t accepts)
  | reset => exact absurd rfl h

end Lasting

end TypeIdentity.Engine.Memory
