import TypeIdentity.Proofs.Engine.Resolution

/-! # Types whose literals print alike

The engine answers with the literal that is stored for a canonical text.  A type whose literal is
printed like the one of a type met before is therefore given that one.
-/
namespace TypeIdentity.Engine.Memory
open TypeLiteral
variable {store : Store} {memory after : Memory} {t : HostType} {s : StaticType}
  {lit stored : TypeLiteral} {key : String}

/-- What becomes of a type that is not remembered: its literal is built, shared and remembered. -/
theorem literalFor_missed (hnone : memory.identity? t = none)
    (hb : build store t memory.missed = (.ok lit, after)) :
    literalFor store t memory = (share lit >>= remember t) after :=
  (literalFor_unknown hnone).trans (Outcome.run_bind hb)

/-! ## What is stored stays stored -/

def keeping (key : String) (stored : TypeLiteral) : Guarantee EngineM :=
  .maintaining fun m => m.tables.literals.get? key = some stored

theorem keeps_share (lit : TypeLiteral) :
    (keeping key stored).ensures (share lit) fun _ => True := by
  intro m hm a after he
  rw [share_eq] at he
  obtain ⟨-, rfl⟩ := Prod.mk.inj he
  refine ⟨trivial, ?_⟩
  rw [LiteralTable.intern]
  cases hg : m.tables.literals.get? lit.canonical with
  | some known =>
    have hkey : m.tables.literals.entries[lit.canonical]? = some known := hg
    simp only [hkey]
    exact hm
  | none =>
    have hkey : m.tables.literals.entries[lit.canonical]? = none := hg
    simp only [hkey]
    rw [LiteralTable.adds_insert hg lit key, hm, Option.some_or]

theorem keeps_retrieve {build : EngineM TypeLiteral}
    (hb : (keeping key stored).ensures build fun _ => True) :
    (keeping key stored).ensures (retrieve t build) fun _ => True := by
  have hcount (f : Counters → Counters) : (keeping key stored).ensures (count f) fun _ => True := by
    intro m hm a after he
    obtain ⟨-, rfl⟩ := Prod.mk.inj he
    exact ⟨trivial, hm⟩
  refine Guarantee.maintaining_get fun m hm => ?_
  cases m.identity? t with
  | some known =>
    exact (keeping key stored).bind (hcount _) fun _ _ => (keeping key stored).pure trivial
  | none =>
    refine (keeping key stored).bind (hcount _) fun _ _ => ?_
    refine (keeping key stored).bind hb fun lit _ => ?_
    refine (keeping key stored).bind (keeps_share lit) fun lit _ => ?_
    intro m hm a after he
    rw [remember_eq] at he
    obtain ⟨-, rfl⟩ := Prod.mk.inj he
    exact ⟨trivial, hm⟩

theorem keeps_build (store : Store) (s : StaticType) :
    (keeping key stored).ensures (build store (.static s)) fun _ => True := by
  have hthrow (e : Error) : (keeping key stored).ensures (throw e : EngineM TypeLiteral)
      fun _ => True := by
    intro m hm a after he
    cases (Prod.mk.inj he).1
  induction s with
  | shape s ih =>
    have hchildren : ∀ c ∈ s.children,
        (keeping key stored).ensures (literalFor store (.static c)) fun _ => True := by
      intro c hc
      rw [literalFor_eq]
      exact keeps_retrieve (ih c hc)
    rw [build_shape]
    exact (keeping key stored).map ((keeping key stored).traverse hchildren) fun _ _ => trivial
  | named d args ih =>
    have hargs : ∀ c ∈ args,
        (keeping key stored).ensures (literalFor store (.static c)) fun _ => True := by
      intro c hc
      rw [literalFor_eq]
      exact keeps_retrieve (ih c hc)
    cases hv : store.viewDecl d args with
    | error e =>
      rw [build_error hv]
      exact hthrow e
    | ok v =>
      rw [build_named hv]
      exact (keeping key stored).map ((keeping key stored).mapM_pairs hargs) fun _ _ => trivial
  | param | tuple | union => exact hthrow _

/-! ## The first literal of a text -/

/-- What is found for a type met for the first time is stored under its text. -/
theorem stored_of_literalFor (h : Denotes store t lit) (hp : lit.Portable)
    (hm : Sound store memory) (hnone : memory.identity? t = none) :
    ∃ after, literalFor store t memory = (.ok lit, after) ∧ Sound store after ∧
      after.tables.literals.get? lit.canonical = some lit := by
  have hmissed : Sound store memory.missed := ⟨hm.literals, hm.identities⟩
  obtain ⟨built, hb, hs⟩ := returns_build h hp.inside memory.missed hmissed
  obtain ⟨literals, hi, hl, hget⟩ := hs.literals.intern hp
  have hshared : Sound store { built with tables := { built.tables with literals } } :=
    ⟨hl, hs.identities⟩
  obtain ⟨after, hr, ha⟩ := returns_remember h hp _ hshared
  have hrun : (share lit >>= remember t) built = (.ok lit, after) := by
    rw [Outcome.run_bind (share_eq lit built), hi]
    exact hr
  refine ⟨after, (literalFor_missed hnone hb).trans hrun, ha, ?_⟩
  rw [remember_eq] at hr
  rw [← (Prod.mk.inj hr).2]
  exact hget

/-- Sound memories remember no literal that cannot be read back. -/
theorem Sound.identity?_eq_none (hm : Sound store memory) (h : Denotes store (.static s) lit)
    (hp : ¬lit.Portable) : memory.identities[HostType.static s]? = none := by
  cases hk : memory.identities[HostType.static s]? with
  | none => rfl
  | some known =>
    obtain ⟨hknown, u, hsame, hu⟩ := hm.identities _ known hk
    have hn := HostType.same_iff.1 hsame
    cases u with
    | runtime r => cases hn
    | static s' =>
      have hs := HostType.static.inj hn
      rw [nominal_static h, nominal_static hu] at hs
      exact absurd (nominalStatic_injective hs ▸ hknown) hp

/-- A literal that cannot be read back gives way to the one stored under its text. -/
theorem literalFor_shadowed (hm : Sound store memory) (h : Denotes store (.static s) lit)
    (hc : ∀ c ∈ lit.children, c.Portable) (hp : ¬lit.Portable)
    (hg : memory.tables.literals.get? lit.canonical = some stored) :
    ∃ built, Sound store built ∧ literalFor store (.static s) memory =
      (.ok stored, { built with identities := built.identities.insertIfNew (.static s) stored }) := by
  have hmissed : Sound store memory.missed := ⟨hm.literals, hm.identities⟩
  obtain ⟨built, hb, hs⟩ := returns_build h hc memory.missed hmissed
  have hkept : built.tables.literals.entries[lit.canonical]? = some stored :=
    (keeps_build store s memory.missed hg lit built hb).2
  have hnone : memory.identity? (.static s) = none := by
    rw [identity?_eq, hm.identity?_eq_none h hp]
  refine ⟨built, hs, ?_⟩
  rw [literalFor_missed hnone hb, Outcome.run_bind (share_eq lit built), LiteralTable.intern]
  simp only [hkept]
  rw [remember_eq, hs.identity?_eq_none h hp]
  rfl

/-! ## Two components that print alike -/

def parentDecl : Decl := ⟨0, "..", "int", []⟩

def parentPackages : Packages := (Packages.empty.declare ".." "int" [] ⟨#[], #[]⟩).2

def parentStore : Store := ⟨#[⟨some (.shape (.basic .int)), []⟩], #[]⟩

/-- The functions of any number of integers. -/
def spreadType : StaticType :=
  .shape (.func ⟨[.shape (.slice (.shape (.basic .int)))], [], true⟩)

/-- The functions of one value of the type `int` in the package `..`. -/
def parentType : StaticType := .shape (.func ⟨[.named parentDecl []], [], false⟩)

def collisionType : StaticType := .shape (.map spreadType parentType)

theorem viewable_spread : Viewable parentStore spreadType := by
  refine .shape fun c hc => ?_
  rw [List.mem_singleton.1 hc]
  refine .shape fun c hc => ?_
  rw [List.mem_singleton.1 hc]
  exact viewable_basic .int

theorem viewable_parent : Viewable parentStore parentType := by
  have hv : parentStore.viewDecl parentDecl [] =
      .ok ⟨"..", "int", .resolved [], .shape (.basic .int), []⟩ := rfl
  refine .shape fun c hc => ?_
  rw [List.mem_singleton.1 hc]
  exact .named hv (by simp)

theorem not_portable_parent : ¬parentType.literal.Portable := by
  intro hp
  have hc : ¬parentType.literal.ClearParams := by
    unfold ClearParams
    decide +kernel
  exact hc hp.clear

theorem viewable_collision : Viewable parentStore collisionType := by
  refine .shape fun c hc => ?_
  rcases List.mem_pair.1 hc with rfl | rfl
  · exact viewable_spread
  · exact viewable_parent

theorem not_portable_collision : ¬collisionType.literal.Portable := by
  intro hp
  refine not_portable_parent (hp.inside _ ?_)
  rw [collisionType, StaticType.literal_shape]
  simp [children, Shape.mapChildren, Shape.children]

theorem portable_spread : spreadType.literal.Portable := by
  refine ⟨?_, ?_, by decide +kernel⟩
  · unfold WellFormed WellFormedAs; decide +kernel
  · unfold ClearParams; decide +kernel

/-- The second component is given the literal of the first one. -/
theorem literalFor_collision : (literalFor parentStore (.static collisionType) {}).1 =
    .ok (shape (.map spreadType.literal spreadType.literal)) := by
  have hparam : ∀ c ∈ parentType.literal.children, c.Portable := by
    have hchildren : parentType.literal.children = [named ".." "int" []] := by decide +kernel
    rw [hchildren]
    intro c hc
    rw [List.mem_singleton.1 hc]
    refine ⟨?_, ?_, by decide +kernel⟩
    · unfold WellFormed WellFormedAs; decide +kernel
    · unfold ClearParams; decide +kernel
  have hpair : (shape (.map spreadType.literal spreadType.literal)).Portable := by
    refine ⟨.intro trivial ?_, .intro trivial ?_, .intro (by decide) ?_⟩ <;> intro c hc <;>
      rcases List.mem_pair.1 hc with rfl | rfl
    all_goals first
      | exact portable_spread.wellFormed
      | exact portable_spread.clear
      | exact portable_spread.unmarked
  have htext : parentType.literal.canonical = spreadType.literal.canonical := by decide +kernel
  have hmissed : Sound parentStore (missed {}) :=
    ⟨(sound_fresh parentStore {}).literals, (sound_fresh parentStore {}).identities⟩
  obtain ⟨m, hfirst, hm, hstored⟩ :=
    stored_of_literalFor viewable_spread.denotes portable_spread hmissed rfl
  obtain ⟨built, hbuilt, hsecond⟩ := literalFor_shadowed hm viewable_parent.denotes hparam
    not_portable_parent (htext ▸ hstored)
  have htraverse : (Shape.map spreadType parentType).traverse
      (fun c => literalFor parentStore (.static c)) (missed {}) =
        (.ok (.map spreadType.literal spreadType.literal), { built with
          identities := built.identities.insertIfNew (.static parentType) spreadType.literal }) :=
    (Outcome.run_bind hfirst).trans ((Outcome.run_bind hsecond).trans rfl)
  have hb : build parentStore (.static collisionType) (missed {}) =
      (.ok (shape (.map spreadType.literal spreadType.literal)), { built with
        identities := built.identities.insertIfNew (.static parentType) spreadType.literal }) := by
    rw [collisionType, build_shape, map_eq_pure_bind]
    exact (Outcome.run_bind htraverse).trans rfl
  obtain ⟨literals, hi, -⟩ := hbuilt.literals.intern hpair
  have hnew : (built.identities.insertIfNew (.static parentType) spreadType.literal)[
      HostType.static collisionType]? = none := by
    rw [Std.HashMap.getElem?_insertIfNew, if_neg]
    · exact hbuilt.identity?_eq_none viewable_collision.denotes not_portable_collision
    · rintro ⟨hsame, -⟩
      have hn := HostType.static.inj (HostType.same_iff.1 hsame)
      rw [collisionType, parentType, StaticType.nominal_shape, StaticType.nominal_shape] at hn
      cases hn
  rw [literalFor_missed rfl hb, Outcome.run_bind (share_eq _ _), hi, remember_eq, hnew]
  rfl

theorem resolve_collision :
    parentPackages.resolve collisionType.literal = .ok collisionType := by
  have hlit : collisionType.literal =
      shape (.map (shape (.func ⟨[shape (.slice (shape (.basic .int)))], [], true⟩))
        (shape (.func ⟨[named ".." "int" []], [], false⟩))) := by
    decide +kernel
  have hnew : "int" ∉ (Packages.empty.add "..").byPath.getD ".." ∅ := by
    simp [Packages.add, Packages.empty, Std.HashMap.getD_insertIfNew]
  have hd : (Packages.empty.declare ".." "int" [] ⟨#[], #[]⟩).1 =
      .ok (parentDecl, ⟨#[.empty], #[]⟩) := by
    rw [Packages.declare, if_neg hnew]
    rfl
  have hlookup : parentPackages.lookup ".." "int" = .ok parentDecl :=
    Packages.lookup_of_holds (Packages.holds_declare hd) (by simp)
  rw [hlit]
  simp only [Packages.resolve_shape, Packages.resolve_named, Shape.traverse, Signature.traverse,
    List.mapM_cons, List.mapM_nil, hlookup]
  rfl

/-- A literal may resolve to a type for which another literal is found. -/
theorem literalFor_resolved_collision : parentPackages.Reachable ∧
    collisionType.literal.WellFormed ∧
    ∃ t, parentPackages.resolve collisionType.literal = .ok t ∧
      ∃ found, (literalFor parentStore (.static t) {}).1 = .ok found ∧
        found ≠ collisionType.literal := by
  refine ⟨.declare ".." "int" [] ⟨#[], #[]⟩ .empty, ?_, _, resolve_collision, _,
    literalFor_collision, ?_⟩
  · unfold WellFormed WellFormedAs
    decide +kernel
  · decide +kernel

end TypeIdentity.Engine.Memory
