import TypeIdentity.Engine.Memory
import TypeIdentity.Proofs.Engine.Denotation

/-! # The literals that the engine finds

What the engine remembers of a type is the literal that the type denotes.  A memory with this
property answers with that literal, whether it has been asked before or not, and keeps the property.
-/
namespace TypeIdentity.Engine.Memory
open TypeLiteral Literal Scan Text
variable {store : Store} {t : HostType} {lit : TypeLiteral}

/-- Every remembered literal is the one that the type denotes. -/
structure Sound (store : Store) (memory : Memory) : Prop where
  literals : memory.tables.literals.Sound
  identities : ∀ t lit, memory.identities[t]? = some lit →
    lit.Portable ∧ ∃ u, u.same t = true ∧ Denotes store u lit

theorem sound_fresh (store : Store) (config : Config) : Sound store { config } where
  literals := LiteralTable.sound_empty
  identities := by simp

theorem Sound.eq_of_identity? {memory : Memory} (hm : Sound store memory)
    (h : Denotes store t lit) (hp : lit.Portable) {known : TypeLiteral}
    (hk : memory.identity? t = some known) : known = lit := by
  rw [identity?_eq] at hk
  obtain ⟨hknown, u, hsame, hu⟩ := hm.identities t known hk
  exact hu.eq_of_same h hknown hp hsame

theorem Sound.insertIfNew {memory : Memory} (hm : Sound store memory) (h : Denotes store t lit)
    (hp : lit.Portable) :
    Sound store { memory with identities := memory.identities.insertIfNew t lit } where
  literals := hm.literals
  identities := by
    intro t' lit' hl
    have hl' : (memory.identities.insertIfNew t lit)[t']? = some lit' := hl
    rw [Std.HashMap.getElem?_insertIfNew] at hl'
    split at hl'
    · next hnew =>
      obtain rfl := Option.some.inj hl'
      exact ⟨hp, t, hnew.1, h⟩
    · exact hm.identities t' lit' hl'

/-- Returned from all sound memories, which stay sound. -/
def outcome (store : Store) : Outcome EngineM := .preserving (Sound store)

theorem returns_count (f : Counters → Counters) : (outcome store).returns (count f) ⟨⟩ :=
  Outcome.preserving_modify fun _ hm => ⟨hm.literals, hm.identities⟩

theorem returns_parse (hp : lit.Portable) : (outcome store).returns (parse lit.canonical) lit := by
  refine (outcome store).bind (returns_count _) (Outcome.preserving_get fun memory hm => ?_)
  obtain ⟨after, he, hs⟩ := ParseTables.parse_canonical_tables hp hm.literals
  rw [he]
  refine (outcome store).bind (Outcome.preserving_modify fun m hm => ⟨hs, hm.identities⟩) ?_
  exact Outcome.preserving_lift lit

theorem returns_share (hp : lit.Portable) : (outcome store).returns (share lit) lit := by
  apply Outcome.preserving_get
  intro memory hm
  obtain ⟨after, he, hs, -⟩ := hm.literals.intern hp
  rw [he]
  refine (outcome store).bind (Outcome.preserving_modify fun m hm => ⟨hs, hm.identities⟩) ?_
  exact (outcome store).pure lit

theorem share_eq (lit : TypeLiteral) (memory : Memory) :
    share lit memory = (.ok (memory.tables.literals.intern lit).1, { memory with
      tables := { memory.tables with literals := (memory.tables.literals.intern lit).2 } }) := rfl

theorem remember_eq (t : HostType) (lit : TypeLiteral) (memory : Memory) :
    remember t lit memory = (.ok ((memory.identities[t]?).getD lit),
      { memory with identities := memory.identities.insertIfNew t lit }) := by
  change (Except.ok ((memory.identities.getThenInsertIfNew? t lit).1.getD lit),
    { memory with identities := (memory.identities.getThenInsertIfNew? t lit).2 }) = _
  rw [Std.HashMap.getThenInsertIfNew?_fst, Std.HashMap.getThenInsertIfNew?_snd]

theorem returns_remember (h : Denotes store t lit) (hp : lit.Portable) :
    (outcome store).returns (remember t lit) lit := by
  intro memory hm
  refine ⟨{ memory with identities := memory.identities.insertIfNew t lit }, ?_,
    hm.insertIfNew h hp⟩
  have hknown : (memory.identities[t]?).getD lit = lit := by
    rw [← identity?_eq]
    cases hk : memory.identity? t with
    | none => rfl
    | some known => exact hm.eq_of_identity? h hp hk
  rw [remember_eq, hknown]

theorem returns_parseArgs {args : List TypeLiteral} (hne : args ≠ [])
    (hp : ∀ a ∈ args, a.Portable) :
    (outcome store).returns (parseArgs (",".intercalate (args.map canonical))) args := by
  have htext := toList_intercalate_canonical args
  have hsplit : splitParts .comma (",".intercalate (args.map canonical)).toList =
      .ok (args.map (write id)) := by
    rw [htext]
    exact splitParts_writeList (padding_nil .comma) fun a ha => (written (hp a ha).wellFormed).1
  have hfull : ¬(",".intercalate (args.map canonical)).isEmpty = true := by
    intro he
    rw [String.isEmpty_iff.1 he] at hsplit
    exact hne (List.map_eq_nil_iff.1 (Except.ok.inj hsplit).symm)
  unfold parseArgs
  rw [if_neg hfull, hsplit]
  apply (outcome store).bind (Outcome.preserving_lift (args.map (write id)))
  have hparse : ∀ a ∈ args, (outcome store).returns (parse (String.ofList (a.write id))) a := by
    intro a ha
    rw [← render_eq]
    exact returns_parse (hp a ha)
  have hall := (outcome store).mapM (g := id) hparse
  rw [List.map_id] at hall
  rw [List.mapM_map]
  exact hall

/-- Looks the literal of a type up, and builds it where it is not known yet. -/
def retrieve (t : HostType) (build : EngineM TypeLiteral) : EngineM TypeLiteral := do
  match (← get).identity? t with
  | some lit =>
    count fun c => { c with identityHits := c.identityHits + 1 }
    return lit
  | none =>
    count fun c => { c with identityMisses := c.identityMisses + 1 }
    remember t (← share (← build))

/-- The memory with the counters that a known type leaves. -/
def hit (memory : Memory) : Memory :=
  { memory with counters :=
    { memory.counters with identityHits := memory.counters.identityHits + 1 } }

/-- The memory with the counters that a type not known yet leaves. -/
def missed (memory : Memory) : Memory :=
  { memory with counters :=
    { memory.counters with identityMisses := memory.counters.identityMisses + 1 } }

theorem retrieve_eq (t : HostType) (build : EngineM TypeLiteral) (memory : Memory) :
    retrieve t build memory = match memory.identity? t with
      | some lit => (.ok lit, memory.hit)
      | none => (build >>= fun lit => share lit >>= remember t) memory.missed := by
  have hget : retrieve t build memory = (match memory.identity? t with
      | some lit => do
        count fun c => { c with identityHits := c.identityHits + 1 }
        return lit
      | none => do
        count fun c => { c with identityMisses := c.identityMisses + 1 }
        remember t (← share (← build))) memory := rfl
  rw [hget]
  cases memory.identity? t with
  | some lit => rfl
  | none => exact Outcome.run_bind rfl

def build (store : Store) (t : HostType) : EngineM TypeLiteral :=
  match store.view t with
  | .error e => throw e
  | .ok (.shape s) => .shape <$> s.traverse (literalFor store)
  | .ok (.named n) =>
    .named n.path n.name <$> match n.args with
      | .resolved args => args.mapM (literalFor store)
      | .printed text => parseArgs text

theorem literalFor_eq (store : Store) (t : HostType) :
    literalFor store t = retrieve t (build store t) := by
  rw [literalFor, retrieve, build]
  congr
  funext memory
  cases memory.identity? t with
  | some => rfl
  | none =>
    dsimp only
    split
    · next hv => simp only [hv]
    · next hv => simp only [hv, Shape.attach_traverse]
    · next n hv =>
      simp only [hv]
      split
      · next args ha =>
        simp only [ha, attach_mapM]
      · next ha => simp only [ha]

/-- The literal of a type that is known. -/
theorem literalFor_known {memory : Memory}
    (h : memory.identity? t = some lit) : literalFor store t memory = (.ok lit, memory.hit) := by
  rw [literalFor_eq, retrieve_eq, h]

/-- The literal of a type that is not known is built, shared and remembered. -/
theorem literalFor_unknown {memory : Memory}
    (h : memory.identity? t = none) : literalFor store t memory =
      (build store t >>= fun lit => share lit >>= remember t) memory.missed := by
  rw [literalFor_eq, retrieve_eq, h]

theorem returns_retrieve {build : EngineM TypeLiteral} (h : Denotes store t lit) (hp : lit.Portable)
    (hb : (outcome store).returns build lit) : (outcome store).returns (retrieve t build) lit := by
  apply Outcome.preserving_get
  intro memory hm
  cases hk : memory.identity? t with
  | some known =>
    obtain rfl := hm.eq_of_identity? h hp hk
    exact (outcome store).bind (returns_count _) ((outcome store).pure known)
  | none =>
    refine (outcome store).bind (returns_count _) ((outcome store).bind hb ?_)
    exact (outcome store).bind (returns_share hp) (returns_remember h hp)

theorem returns_build (h : Denotes store t lit) (hp : ∀ c ∈ lit.children, c.Portable) :
    (outcome store).returns (build store t) lit := by
  induction h with
  | @shape t z hv hc ih =>
    have hchildren : ∀ c ∈ z.children, (outcome store).returns (literalFor store c.1) c.2 := by
      intro c hm
      have hpc : c.2.Portable := by
        refine hp c.2 ?_
        exact Shape.mem_children_map _ hm
      rw [literalFor_eq]
      exact returns_retrieve (hc c hm) hpc (ih c hm hpc.inside)
    rw [build, hv]
    refine (outcome store).map _ ?_
    rw [Shape.traverse_mapChildren]
    exact (outcome store).traverse hchildren
  | resolved args hv ha hc ih =>
    have hargs : ∀ c ∈ args, (outcome store).returns (literalFor store c.1) c.2 := by
      intro c hm
      have hpc : c.2.Portable := hp c.2 (List.mem_map_of_mem hm)
      rw [literalFor_eq]
      exact returns_retrieve (hc c hm) hpc (ih c hm hpc.inside)
    rw [build, hv]
    refine (outcome store).map _ ?_
    simp only [ha, List.mapM_map]
    exact (outcome store).mapM hargs
  | printed hv hne ha =>
    rw [build, hv]
    refine (outcome store).map _ ?_
    simp only [ha]
    exact returns_parseArgs hne hp

/-- The engine finds the literal that a type denotes, whatever it has learnt before. -/
theorem returns_literalFor (h : Denotes store t lit) (hp : lit.Portable) :
    (outcome store).returns (literalFor store t) lit := by
  rw [literalFor_eq]
  exact returns_retrieve h hp (returns_build h hp.inside)

/-- Types with one literal are all answered with it. -/
theorem literalsFor_of_returns {ts : List HostType}
    (h : ∀ t ∈ ts, (outcome store).returns (literalFor store t) lit) (config : Config) :
    (literalsFor store ts { config }).1 = .ok (ts.map fun _ => lit) := by
  have hall : (outcome store).returns (literalsFor store ts) (ts.map fun _ => lit) :=
    (outcome store).mapM h
  obtain ⟨after, he, -⟩ := hall { config } (sound_fresh store config)
  exact congrArg Prod.fst he

/-! ## Failures -/

variable {memory : Memory} {e : Error}

theorem parse_error {id : String} {tables : ParseTables}
    (h : memory.tables.parse ⟨true, true⟩ id = (.error e, tables)) :
    ∃ after, parse id memory = (.error e, after) := by
  have hrun : (parse id memory).1 = (memory.tables.parse ⟨true, true⟩ id).1 := rfl
  rw [h] at hrun
  exact ⟨(parse id memory).2, Prod.ext hrun rfl⟩

theorem retrieve_error {build : EngineM TypeLiteral} (hnone : memory.identity? t = none)
    (hb : ∀ m : Memory, m.tables = memory.tables → ∃ after, build m = (.error e, after)) :
    ∃ after, retrieve t build memory = (.error e, after) := by
  obtain ⟨after, he⟩ := hb memory.missed rfl
  refine ⟨after, ?_⟩
  rw [retrieve_eq, hnone]
  exact Outcome.run_bind_error he

end TypeIdentity.Engine.Memory
