import TypeIdentity.Proofs.Coupling
import TypeIdentity.Proofs.Engine.FirstFinds
import TypeIdentity.Proofs.Engine.Remembering
import TypeIdentity.Proofs.Engine.Tallies
import TypeIdentity.Proofs.Promotion.HostMethodSets

/-! # What the counters of the engine count

Every lookup of a literal is counted as a hit or as a miss, and every miss either remembers one more
type or fails.  While a type is looked up that is not remembered yet, only smaller types become
remembered, so that the type itself is new when its literal has been built.
-/
namespace TypeIdentity

/-! ## Smaller types -/

/-- No type is the same as one of its type arguments. -/
theorem sizeOf_nominal_lt_of_args {store : Store} {t c : HostType} {n : NamedView HostType}
    {args : List HostType} (hv : store.view t = .ok (.named n)) (ha : n.args = .resolved args)
    (hc : c ∈ args) : sizeOf c.nominal < sizeOf t.nominal := by
  cases t with
  | static t =>
    obtain ⟨d, as, v, rfl, hview, hn⟩ := view_static_named hv
    obtain ⟨-, -, hargs⟩ := viewDecl_ok hview
    have hstatic : args = as.map .static := by
      have hresolved : n.args = v.args.map .static := by
        rw [View.map] at hn
        rw [View.named.inj hn]
      rw [ha, hargs] at hresolved
      exact TypeArgs.resolved.inj hresolved
    rw [hstatic] at hc
    obtain ⟨u, hu, rfl⟩ := List.mem_map.1 hc
    have hlt : sizeOf u.nominal < sizeOf (StaticType.named d as).nominal :=
      Engine.Memory.sizeOf_child_lt hu
    simpa [HostType.nominal] using hlt
  | runtime r =>
    obtain ⟨node, v, rfl, hview, hn⟩ := view_runtime_named hv
    have hresolved : n.args = v.args.map .runtime := by
      rw [View.map] at hn
      rw [View.named.inj hn]
    rw [ha] at hresolved
    cases hargs : v.args with
    | printed text =>
      rw [hargs] at hresolved
      cases hresolved
    | resolved as =>
      rw [hargs, Store.viewNode_args hview hargs] at hresolved
      obtain rfl := TypeArgs.resolved.inj hresolved
      cases hc

namespace Engine.Account
open Memory (Call)
variable {store : Store} {t : HostType} {α β : Type}

/-! ## Balance -/

/-- How often the literal of a type has been looked up in vain or not. -/
def looked (memory : Memory) : Nat :=
  memory.counters.identityHits + memory.counters.identityMisses

/-- What has happened between two accounts: as many lookups were begun as were counted, every miss
has remembered a type or failed, and the types remembered since have a property. -/
structure Balanced (P : HostType → Prop) (a b : Account) : Prop where
  begun : b.tally.begun + looked a.memory = a.tally.begun + looked b.memory
  missed : b.memory.counters.identityMisses + a.memory.rememberedCount + a.tally.failed =
    a.memory.counters.identityMisses + b.memory.rememberedCount + b.tally.failed
  learnt : ∀ u ∈ b.memory.identities, u ∈ a.memory.identities ∨ P u

namespace Balanced
variable {P Q : HostType → Prop} {a b c : Account}

theorem refl (P : HostType → Prop) (a : Account) : Balanced P a a := ⟨rfl, rfl, fun _ => .inl⟩

theorem trans (hab : Balanced P a b) (hbc : Balanced P b c) : Balanced P a c where
  begun := by
    have h1 := hab.begun
    have h2 := hbc.begun
    omega
  missed := by
    have h1 := hab.missed
    have h2 := hbc.missed
    omega
  learnt u hu := by
    rcases hbc.learnt u hu with hu | hu
    · exact hab.learnt u hu
    · exact .inr hu

theorem imp (h : Balanced P a b) (hP : ∀ u, P u → Q u) : Balanced Q a b :=
  ⟨h.begun, h.missed, fun u hu => (h.learnt u hu).imp_right (hP u)⟩

end Balanced

/-- The computation with the tally does what the one without does, and keeps the account balanced,
also when it fails. -/
def Mirrors (P : HostType → Prop) (x : EngineM α) (y : AccountM α) : Prop :=
  ∀ a : Account, ∃ tally, y a = ((x a.memory).1, ⟨(x a.memory).2, tally⟩) ∧
    Balanced P a ⟨(x a.memory).2, tally⟩

namespace Mirrors
variable {P Q : HostType → Prop} {x : EngineM α} {y : AccountM α}

theorem pure (a : α) : Mirrors P (Pure.pure a) (Pure.pure a) :=
  fun account => ⟨account.tally, rfl, .refl P account⟩

theorem throw (e : Error) : Mirrors P (throw e : EngineM α) (throw e) :=
  fun account => ⟨account.tally, rfl, .refl P account⟩

theorem bind {f : α → EngineM β} {g : α → AccountM β} (h : Mirrors P x y)
    (hk : ∀ a, Mirrors P (f a) (g a)) : Mirrors P (x >>= f) (y >>= g) := by
  intro a
  obtain ⟨tally, hy, hbalanced⟩ := h a
  cases hx : x a.memory with
  | mk answer m =>
    rw [hx] at hy hbalanced
    cases answer with
    | error e =>
      rw [Outcome.run_bind_error hx, Outcome.run_bind_error hy]
      exact ⟨tally, rfl, hbalanced⟩
    | ok v =>
      obtain ⟨last, hlast, hmore⟩ := hk v ⟨m, tally⟩
      rw [Outcome.run_bind hx, Outcome.run_bind hy]
      exact ⟨last, hlast, hbalanced.trans hmore⟩

/-- Computations with and without the tally, step by step. -/
def coupling (P : HostType → Prop) : Coupling EngineM AccountM where
  related := Mirrors P
  pure := pure
  bind := bind

theorem imp (h : Mirrors P x y) (hP : ∀ u, P u → Q u) : Mirrors Q x y := by
  intro a
  obtain ⟨tally, hy, hbalanced⟩ := h a
  exact ⟨tally, hy, hbalanced.imp hP⟩

end Mirrors

/-! ## Steps without lookups -/

/-- Nothing has been looked up and nothing has been remembered. -/
def Untouched (m m' : Memory) : Prop :=
  m'.identities = m.identities ∧ looked m' = looked m ∧
    m'.counters.identityMisses = m.counters.identityMisses

/-- Computations that look nothing up, whatever they answer. -/
def quiet : Guarantee EngineM :=
  .advancing (fun _ => True) Untouched (fun _ => ⟨rfl, rfl, rfl⟩) fun hab hbc =>
    ⟨hbc.1.trans hab.1, hbc.2.1.trans hab.2.1, hbc.2.2.trans hab.2.2⟩

def Quiet (x : EngineM α) : Prop := quiet.ensures x fun _ => True

theorem quiet_of {x : EngineM α} (h : ∀ m, Untouched m (x m).2) : Quiet x :=
  fun m _ => ⟨trivial, h m, fun _ _ => trivial⟩

theorem quiet_parse (id : String) : Quiet (Memory.parse id) := quiet_of fun _ => ⟨rfl, rfl, rfl⟩

theorem quiet_parseArgs (text : String) : Quiet (Memory.parseArgs text) := by
  unfold Memory.parseArgs
  split
  · exact quiet.pure trivial
  · refine quiet.bind (quiet_of fun _ => ⟨rfl, rfl, rfl⟩) fun parts _ => ?_
    exact quiet.imp (quiet.mapM_pairs fun part _ => quiet_parse _) fun _ _ => trivial

theorem Mirrors.step {P : HostType → Prop} {x : EngineM α} (h : Quiet x) :
    Mirrors P x (step x) := by
  intro a
  obtain ⟨-, ⟨hidentities, hlooked, hmisses⟩, -⟩ := h a.memory trivial
  refine ⟨a.tally, rfl, ?_, ?_, ?_⟩
  · rw [hlooked]
  · rw [hmisses, Memory.rememberedCount, Memory.rememberedCount, hidentities]
  · rw [hidentities]
    exact fun u => .inl

/-! ## Lookups -/

/-- The account in which a type that is not remembered has begun to be looked up. -/
def opened (a : Account) : Account := ⟨a.memory.missed, { a.tally with begun := a.tally.begun + 1 }⟩

theorem retrieve_eq (y : AccountM TypeLiteral) (a : Account) :
    retrieve t y a = match a.memory.identity? t with
      | some lit => (.ok lit, ⟨a.memory.hit, { a.tally with begun := a.tally.begun + 1 }⟩)
      | none => conclude ((y >>= fun lit => step (Memory.share lit >>= Memory.remember t))
          a.opened) := by
  have hrun : retrieve t y a = conclude ((match a.memory.identity? t with
      | some lit => do
        step (Memory.count fun c => { c with identityHits := c.identityHits + 1 })
        return lit
      | none => do
        step (Memory.count fun c => { c with identityMisses := c.identityMisses + 1 })
        let lit ← y
        step (Memory.share lit >>= Memory.remember t) : AccountM TypeLiteral)
      { a with tally.begun := a.tally.begun + 1 }) := rfl
  rw [hrun]
  cases a.memory.identity? t with
  | some lit => rfl
  | none => rfl

section Opened
variable {P : HostType → Prop} {a b : Account} (h : Balanced P a.opened b)
include h

theorem Balanced.begun_of_opened :
    b.tally.begun + looked a.memory = a.tally.begun + looked b.memory := by
  have hbegun : b.tally.begun + (looked a.memory + 1) = a.tally.begun + 1 + looked b.memory :=
    h.begun
  omega

theorem Balanced.missed_of_opened :
    b.memory.counters.identityMisses + a.memory.rememberedCount + a.tally.failed =
      a.memory.counters.identityMisses + b.memory.rememberedCount + b.tally.failed + 1 := by
  have hmissed : b.memory.counters.identityMisses + a.memory.rememberedCount + a.tally.failed =
      a.memory.counters.identityMisses + 1 + b.memory.rememberedCount + b.tally.failed := h.missed
  omega

/-- A miss that fails is balanced by its failure. -/
theorem Balanced.of_failed : Balanced P a { b with tally.failed := b.tally.failed + 1 } :=
  ⟨h.begun_of_opened, h.missed_of_opened, h.learnt⟩

end Opened

/-- A miss that succeeds is balanced by the type that is remembered, which has not become remembered
while its literal was built. -/
theorem Balanced.of_learnt {a b : Account} (lit : TypeLiteral)
    (h : Balanced (fun u => sizeOf u.nominal < sizeOf t.nominal) a.opened b)
    (ht : a.memory.identity? t = none) :
    Balanced (fun u => sizeOf u.nominal ≤ sizeOf t.nominal) a
      { b with memory := b.memory.learnt t lit } := by
  have hfresh : t ∉ b.memory.identities := by
    intro hmem
    rcases h.learnt t hmem with hold | hlt
    · have hsome : (a.memory.identity? t).isSome := by
        rw [Memory.identity?_eq]
        exact Std.HashMap.mem_iff_isSome_getElem?.1 hold
      rw [ht] at hsome
      cases hsome
    · exact lt_irrefl _ hlt
  have hkeys : (b.memory.learnt t lit).identities =
      b.memory.identities.insertIfNew t (b.memory.tables.literals.intern lit).1 :=
    Memory.settle_eq lit b.memory
  have hcounters : (b.memory.learnt t lit).counters = b.memory.counters := by
    rw [Memory.learnt, Outcome.run_bind (Memory.share_eq lit b.memory), Memory.remember_eq]
  have hlooked : looked (b.memory.learnt t lit) = looked b.memory := by
    rw [looked, looked, hcounters]
  have hcount : (b.memory.learnt t lit).rememberedCount = b.memory.rememberedCount + 1 := by
    rw [Memory.rememberedCount, hkeys, Std.HashMap.size_insertIfNew, if_neg hfresh,
      Memory.rememberedCount]
  refine ⟨hlooked ▸ h.begun_of_opened, ?_, fun u hu => ?_⟩
  · have hmissed := h.missed_of_opened
    dsimp only
    rw [hcounters, hcount]
    omega
  · rw [hkeys, Std.HashMap.mem_insertIfNew] at hu
    rcases hu with hsame | hu
    · exact .inr (HostType.same_iff.1 hsame ▸ le_rfl)
    · exact (h.learnt u hu).imp_right le_of_lt

/-- A lookup balances: it is a hit, or a miss that fails or remembers one type, as long as only
smaller types become remembered while the literal is built. -/
theorem mirrors_retrieve {x : EngineM TypeLiteral} {y : AccountM TypeLiteral}
    (h : Mirrors (fun u => sizeOf u.nominal < sizeOf t.nominal) x y) :
    Mirrors (fun u => sizeOf u.nominal ≤ sizeOf t.nominal) (Memory.retrieve t x) (retrieve t y) := by
  intro a
  rw [Memory.retrieve_eq, retrieve_eq]
  cases hk : a.memory.identity? t with
  | some lit =>
    refine ⟨{ a.tally with begun := a.tally.begun + 1 }, rfl, ?_, rfl, fun u => .inl⟩
    simp only [looked, Memory.hit]
    omega
  | none =>
    obtain ⟨tally, hy, hbalanced⟩ := h a.opened
    cases hx : x a.memory.missed with
    | mk answer built =>
      rw [opened, hx] at hy hbalanced
      cases answer with
      | error e =>
        refine ⟨{ tally with failed := tally.failed + 1 }, ?_, ?_⟩
        · simp only [Outcome.run_bind_error hx, opened, Outcome.run_bind_error hy]
          rfl
        · simp only [Outcome.run_bind_error hx]
          exact hbalanced.of_failed.imp fun u => le_of_lt
      | ok lit =>
        refine ⟨tally, ?_, ?_⟩
        · simp only [Outcome.run_bind hx, opened, Outcome.run_bind hy]
          rfl
        · simp only [Outcome.run_bind hx]
          exact hbalanced.of_learnt lit hk

theorem mirrors_build (hc : ∀ c : HostType, sizeOf c < sizeOf t →
      Mirrors (fun u => sizeOf u.nominal ≤ sizeOf c.nominal) (Memory.literalFor store c)
        (literalFor store c)) :
    Mirrors (fun u => sizeOf u.nominal < sizeOf t.nominal) (Memory.build store t)
      (build store t) := by
  have hbelow (c : HostType) (hsize : sizeOf c < sizeOf t)
      (hnominal : sizeOf c.nominal < sizeOf t.nominal) :
      Mirrors (fun u => sizeOf u.nominal < sizeOf t.nominal) (Memory.literalFor store c)
        (literalFor store c) :=
    (hc c hsize).imp fun u hu => hu.trans_lt hnominal
  rw [Memory.build, build]
  cases hv : store.view t with
  | error e => exact .throw e
  | ok view =>
    cases view with
    | shape s =>
      refine (Mirrors.coupling _).map _ ((Mirrors.coupling _).traverse fun c hm => ?_)
      exact hbelow c (Store.sizeOf_lt_of_view_shape hv hm) (Promotion.sizeOf_nominal_lt hv hm)
    | named n =>
      refine (Mirrors.coupling _).map _ ?_
      cases ha : n.args with
      | resolved args =>
        refine (Mirrors.coupling _).mapM fun c hm => ?_
        exact hbelow c (Store.sizeOf_lt_of_view_args hv ha hm) (sizeOf_nominal_lt_of_args hv ha hm)
      | printed text => exact .step (quiet_parseArgs text)

/-- A lookup remembers types that are not larger than the one looked up. -/
theorem mirrors_literalFor (store : Store) (t : HostType) :
    Mirrors (fun u => sizeOf u.nominal ≤ sizeOf t.nominal) (Memory.literalFor store t)
      (literalFor store t) := by
  generalize hn : sizeOf t = n
  induction n using Nat.strongRecOn generalizing t with
  | _ n ih =>
    subst hn
    rw [Memory.literalFor_eq, literalFor_eq]
    exact mirrors_retrieve (mirrors_build fun c hc => ih _ hc c rfl)

/-! ## Calls -/

/-- Computations of the engine beside those with the tally. -/
def mirroring : Coupling EngineM AccountM := Mirrors.coupling fun _ => True

theorem mirroring_literalFor (store : Store) (t : HostType) :
    mirroring.related (Memory.literalFor store t) (literalFor store t) :=
  (mirrors_literalFor store t).imp fun _ _ => trivial

theorem mirroring_step {x : EngineM α} (h : Quiet x) : mirroring.related x (step x) := .step h

/-- A resolution is counted, whatever it finds. -/
theorem quiet_resolution (find : Memory → Except Error α) :
    Quiet (do Memory.countResolution; liftM (find (← get)) : EngineM α) := by
  refine quiet.bind (quiet_of fun _ => ⟨rfl, rfl, rfl⟩) fun _ _ => quiet_of fun m => ?_
  change Untouched m ((liftM (find m) : EngineM α) m).2
  cases find m <;> exact ⟨rfl, rfl, rfl⟩

theorem mirroring_reportMethod (store : Store) (m : Promotion.Promoted HostType) :
    mirroring.related (TypeIdentity.reportMethod store m) (reportMethod store m) := by
  have hsignature : mirroring.related (Memory.signatureLiteral store m.method.signature)
      (signatureLiteral store m.method.signature) :=
    mirroring.bind (mirroring.traverse_signature fun c _ => mirroring_literalFor store c)
      fun _ => mirroring.pure _
  exact mirroring.bind hsignature fun _ => mirroring.pure _

theorem mirroring_methods (store : Store) (t : HostType) :
    mirroring.related (Memory.methods store t) (methods store t) := by
  have hrun : Memory.methods store t = (do
      Memory.countResolution
      liftM (Promotion.methods store.graph (← get).config.maxTraversalDepth t)) >>=
      fun promoted => promoted.mapM (TypeIdentity.reportMethod store) := by
    rw [bind_assoc]
    rfl
  rw [hrun]
  refine mirroring.bind (mirroring_step ?_) fun promoted => ?_
  · exact quiet_resolution fun m => Promotion.methods store.graph m.config.maxTraversalDepth t
  · exact mirroring.mapM fun m _ => mirroring_reportMethod store m

theorem mirroring_fieldBy? (store : Store) (t : HostType) (accepts : String → Bool) :
    mirroring.related (Memory.fieldBy? store t accepts) (fieldBy? store t accepts) := by
  have hrun : Memory.fieldBy? store t accepts = (do
      Memory.countResolution
      liftM (Promotion.field? store.graph (← get).config.maxTraversalDepth accepts t)) >>=
      TypeIdentity.reportField store := by
    rw [bind_assoc, reportField_eq]
    rfl
  rw [hrun]
  refine mirroring.bind (mirroring_step ?_) fun found => ?_
  · exact quiet_resolution fun m =>
      Promotion.field? store.graph m.config.maxTraversalDepth accepts t
  · cases found with
    | none => exact mirroring.pure none
    | some f => exact mirroring.bind (mirroring_literalFor store f.type) fun _ => mirroring.pure _

theorem mirroring_wrapped (store : Store) (t : HostType) :
    mirroring.related (Memory.wrapped store t) (wrapped store t) :=
  mirroring.bind (mirroring_literalFor store t) fun _ =>
    mirroring_step (quiet_of fun _ => ⟨rfl, rfl, rfl⟩)

/-- Short of a reset every call is answered with a tally as it is without one. -/
theorem mirroring_respond {call : Call} (h : call ≠ .reset) :
    mirroring.related (Memory.respond call) (respond call) := by
  cases call with
  | parse id => exact mirroring_step (quiet.map (quiet_parse id) fun _ _ => trivial)
  | parseWithCodec codec? id =>
    have hparse : Quiet (Memory.parseWithCodec codec? id) := quiet_of fun _ => ⟨rfl, rfl, rfl⟩
    exact mirroring_step (quiet.map hparse fun _ _ => trivial)
  | codec call => exact mirroring_step (quiet_of fun _ => ⟨rfl, rfl, rfl⟩)
  | literalize store t => exact mirroring.map _ (mirroring_literalFor store t)
  | literalizeAll store types => exact mirroring.mapM fun t _ => mirroring_literalFor store t
  | wrapped store t => exact mirroring.map _ (mirroring_wrapped store t)
  | display store name t =>
    exact mirroring.map _ (mirroring.bind (mirroring_literalFor store t) fun _ => mirroring.pure _)
  | methods store t => exact mirroring.map _ (mirroring_methods store t)
  | method? store t name =>
    exact mirroring.map _ (mirroring.bind (mirroring_methods store t) fun _ => mirroring.pure _)
  | fieldBy? store t accepts => exact mirroring.map _ (mirroring_fieldBy? store t accepts)
  | reset => exact absurd rfl h

/-- A call is answered with a tally as it is without one. -/
theorem respond_eq (call : Call) (a : Account) : ∃ tally, respond call a =
    ((Memory.respond call a.memory).1, ⟨(Memory.respond call a.memory).2, tally⟩) := by
  by_cases h : call = .reset
  · rw [h]
    exact ⟨{}, rfl⟩
  · obtain ⟨tally, hrun, -⟩ := mirroring_respond h a
    exact ⟨tally, hrun⟩

/-! ## Histories -/

/-- The counters agree with the tally: every lookup is a hit or a miss, and every miss has
remembered a type or failed. -/
structure Agrees (a : Account) : Prop where
  begun : a.memory.counters.identityHits + a.memory.counters.identityMisses = a.tally.begun
  missed : a.memory.counters.identityMisses = a.memory.rememberedCount + a.tally.failed

theorem Agrees.failed_eq_zero {a : Account} (ha : a.Agrees) :
    a.tally.failed = 0 ↔ a.memory.counters.identityMisses = a.memory.rememberedCount := by
  have hmissed := ha.missed
  omega

theorem Agrees.of_balanced {P : HostType → Prop} {a b : Account} (ha : a.Agrees)
    (h : Balanced P a b) : b.Agrees := by
  obtain ⟨hbegun, hmissed⟩ := ha
  have hmore := h.begun
  have hmisses := h.missed
  rw [looked, looked] at hmore
  constructor <;> omega

theorem agrees_fresh (config : Config) : Agrees { memory := { config } } := ⟨rfl, rfl⟩

theorem Agrees.after {a : Account} (ha : a.Agrees) (call : Call) : (a.after call).Agrees := by
  by_cases h : call = .reset
  · rw [h]
    exact agrees_fresh a.memory.config
  · obtain ⟨tally, hrun, hbalanced⟩ := mirroring_respond h a
    rw [Account.after, hrun]
    exact ha.of_balanced hbalanced

theorem agrees_foldl {a : Account} (ha : a.Agrees) (calls : List Call) :
    (calls.foldl after a).Agrees := by
  induction calls generalizing a with
  | nil => exact ha
  | cons call calls ih => exact ih (ha.after call)

theorem memory_foldl (a : Account) (calls : List Call) :
    (calls.foldl after a).memory = calls.foldl Memory.after a.memory := by
  induction calls generalizing a with
  | nil => rfl
  | cons call calls ih =>
    obtain ⟨tally, hrun⟩ := respond_eq call a
    rw [List.foldl_cons, List.foldl_cons, ih, after, hrun, Memory.after]

/-- Whatever the engine has been asked for, with failures or not, each lookup since the last reset
is counted as a hit or as a miss, and the misses are the types that are remembered and the lookups
that failed.  The tally changes neither the answers nor what the engine learns. -/
theorem accounting (config : Config) (calls : List Call) :
    let memory := Memory.reached config calls
    let tally := (reached config calls).tally
    reached config calls = ⟨memory, tally⟩ ∧
      (∀ call, (respond call ⟨memory, tally⟩).1 = (Memory.respond call memory).1) ∧
      memory.counters.identityHits + memory.counters.identityMisses = tally.begun ∧
      memory.counters.identityMisses = memory.rememberedCount + tally.failed ∧
      (tally.failed = 0 ↔ memory.counters.identityMisses = memory.rememberedCount) := by
  intro memory tally
  have hreached : reached config calls = ⟨memory, tally⟩ :=
    congrArg (Account.mk · tally) (memory_foldl { memory := { config } } calls)
  have hagrees : Agrees ⟨memory, tally⟩ :=
    hreached ▸ agrees_foldl (agrees_fresh config) calls
  refine ⟨hreached, fun call => ?_, hagrees.begun, hagrees.missed, hagrees.failed_eq_zero⟩
  obtain ⟨last, hrun⟩ := respond_eq call ⟨memory, tally⟩
  rw [hrun]

end Engine.Account
end TypeIdentity
