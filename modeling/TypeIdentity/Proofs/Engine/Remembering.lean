import TypeIdentity.Proofs.Engine.Calls

/-! # What the engine remembers

Until it is reset the engine never changes what it remembers of a type, so the literals that it
reports can be told from what it remembers in the end.
-/
namespace TypeIdentity.Engine.Memory
open Promotion
variable {store : Store} {t : HostType} {memory later last : Memory}

/-! ## What is remembered -/

/-- Whatever is remembered is remembered later as well. -/
def Remembers (memory later : Memory) : Prop :=
  ∀ (t : HostType) (lit : TypeLiteral), memory.identities[t]? = some lit →
    later.identities[t]? = some lit

theorem Remembers.refl (memory : Memory) : memory.Remembers memory := fun _ _ hk => hk

theorem Remembers.trans (h : memory.Remembers later) (h' : later.Remembers last) :
    memory.Remembers last :=
  fun t lit hk => h' t lit (h t lit hk)

/-- Computations that forget nothing. -/
def remembering : Guarantee EngineM :=
  .advancing (fun _ => True) Remembers .refl .trans

theorem settle_eq (lit : TypeLiteral) (memory : Memory) :
    ((share lit >>= remember t) memory).2.identities =
      memory.identities.insertIfNew t (memory.tables.literals.intern lit).1 := by
  rw [Outcome.run_bind (share_eq lit memory), remember_eq]

theorem lasting_remembering : Lasting remembering where
  lift x memory h := by
    cases x <;> exact ⟨h, .refl _, fun _ _ => trivial⟩
  get h memory hm := h memory memory hm
  count _ memory h := ⟨h, .refl memory, fun _ _ => trivial⟩
  codec _ memory h := ⟨h, .refl memory, fun _ _ => trivial⟩
  parse _ _ memory h := ⟨h, .refl memory, fun _ _ => trivial⟩
  settle t lit memory h := by
    refine ⟨h, fun u known hk => ?_, fun _ _ => trivial⟩
    rw [settle_eq, Std.HashMap.getElem?_insertIfNew]
    split
    · next hnew =>
      have hknown : memory.identities[t]? = some known :=
        (Std.HashMap.getElem?_congr hnew.1).trans hk
      exact absurd (Std.HashMap.mem_iff_isSome_getElem?.2 (by rw [hknown]; rfl)) hnew.2
    · exact hk

/-- The literal that is remembered of a type. -/
def remembered (memory : Memory) (t : HostType) : TypeLiteral :=
  (memory.identities[t]?).getD (.shape (.basic .bool))

theorem getElem?_insertIfNew_self (identities : Std.HashMap HostType TypeLiteral) (t : HostType)
    (lit : TypeLiteral) :
    (identities.insertIfNew t lit)[t]? = some ((identities[t]?).getD lit) := by
  rw [Std.HashMap.getElem?_insertIfNew]
  cases hk : identities[t]? with
  | none =>
    have hnew : t ∉ identities := fun hm => by
      rw [Std.HashMap.mem_iff_isSome_getElem?, hk] at hm
      cases hm
    exact if_pos ⟨beq_self_eq_true t, hnew⟩
  | some known =>
    have hm : t ∈ identities := Std.HashMap.mem_iff_isSome_getElem?.2 (by rw [hk]; rfl)
    exact if_neg fun h => h.2 hm

theorem remembered_of_literalFor {lit : TypeLiteral}
    (h : (literalFor store t memory).1 = .ok lit) :
    (literalFor store t memory).2.identities[t]? = some lit := by
  cases hk : memory.identity? t with
  | some known =>
    rw [literalFor_known hk] at h ⊢
    obtain rfl := Except.ok.inj h
    rw [identity?_eq] at hk
    exact hk
  | none =>
    rw [literalFor_unknown hk] at h ⊢
    obtain ⟨built, middle, -, hstep⟩ := Outcome.exists_step h
    rw [hstep, Outcome.run_bind (share_eq built middle), remember_eq] at h ⊢
    obtain rfl := Except.ok.inj h
    exact getElem?_insertIfNew_self middle.identities t _

/-! ## Values in the light of what is remembered -/

/-- What a computation returns can be told from any memory that remembers what it has learnt. -/
def Settles {α : Type} (x : EngineM α) (value : Memory → α) : Prop :=
  ∀ (memory last : Memory) (a : α), (x memory).1 = .ok a → (x memory).2.Remembers last →
    a = value last

theorem Settles.pure {α : Type} (a : α) : Settles (Pure.pure a) fun _ => a :=
  fun _ _ _ h _ => (Except.ok.inj h).symm

theorem Settles.bind {α β : Type} {x : EngineM α} {f : α → EngineM β} {v : Memory → α}
    {w : α → Memory → β} (hx : Settles x v) (hk : ∀ a, remembering.ensures (f a) fun _ => True)
    (hf : ∀ a, Settles (f a) (w a)) : Settles (x >>= f) fun last => w (v last) last := by
  intro memory last b hb hlast
  obtain ⟨a, middle, hrun, hstep⟩ := Outcome.exists_step hb
  rw [hstep] at hb hlast
  obtain ⟨-, hgrows, -⟩ := hk a middle trivial
  have ha : a = v last := by
    refine hx memory last a ?_ ?_ <;> rw [hrun]
    exact hgrows.trans hlast
  rw [hf a middle last b hb hlast, ha]

theorem Settles.mapM {α β : Type} {f : α → EngineM β} {v : α → Memory → β}
    (hk : ∀ a, remembering.ensures (f a) fun _ => True) (hf : ∀ a, Settles (f a) (v a))
    (as : List α) : Settles (as.mapM f) fun last => as.map fun a => v a last := by
  induction as with
  | nil => exact .pure []
  | cons a as ih =>
    have hall : remembering.ensures (as.mapM f) fun _ => True :=
      remembering.imp (remembering.mapM_pairs fun a _ => hk a) fun _ _ => trivial
    rw [List.mapM_cons]
    refine (hf a).bind (fun b => remembering.bind hall fun _ _ => remembering.pure trivial)
      fun b => ih.bind (fun bs => remembering.pure trivial) fun bs => .pure (b :: bs)

theorem settles_literalFor (store : Store) (t : HostType) :
    Settles (literalFor store t) fun last => last.remembered t := by
  intro memory last lit h hlast
  have hk := hlast t lit (remembered_of_literalFor h)
  change lit = (last.identities[t]?).getD _
  rw [hk]
  rfl

theorem settles_signature (store : Store) (s : Signature HostType) :
    Settles (s.traverse (literalFor store)) fun last => s.map last.remembered := by
  have hall (types : List HostType) := Settles.mapM
    (lasts_literalFor lasting_remembering store) (settles_literalFor store) types
  have hgrows (ins : List TypeLiteral) : remembering.ensures (do
      return (⟨ins, ← s.outs.mapM (literalFor store), s.variadic⟩ : Signature TypeLiteral))
      fun _ => True :=
    remembering.bind (lasts_literalsFor lasting_remembering store s.outs)
      fun _ _ => remembering.pure trivial
  exact (hall s.ins).bind hgrows fun ins =>
    (hall s.outs).bind (fun _ => remembering.pure trivial) fun outs => .pure _

theorem settles_reportMethod (store : Store) (m : Promoted HostType) :
    Settles (reportMethod store m) fun last => methodEntry last.remembered m := by
  have hliteral : Settles (signatureLiteral store m.method.signature) fun last =>
      .shape (.func (m.method.signature.map last.remembered)) :=
    (settles_signature store _).bind (fun _ => remembering.pure trivial) fun _ => .pure _
  exact hliteral.bind (fun _ => remembering.pure trivial) fun _ => .pure _

/-- The entries of a method set are those of the promoted methods, with remembered literals. -/
theorem exists_methodEntries {entries : List MethodEntry}
    (h : (methods store t memory).1 = .ok entries)
    (hlast : (methods store t memory).2.Remembers last) : ∃ ms,
      Promotion.methods store.graph memory.config.maxTraversalDepth t = .ok ms ∧
        entries = ms.map (methodEntry last.remembered) := by
  obtain ⟨counters, hrun⟩ := methods_run store t memory
  rw [hrun] at h hlast
  cases hm : Promotion.methods store.graph memory.config.maxTraversalDepth t with
  | error e =>
    rw [hm] at h
    cases h
  | ok ms =>
    rw [hm, Outcome.run_lift_bind] at h hlast
    have hgrows (m : Promoted HostType) := lasts_reportMethod lasting_remembering store m
    exact ⟨ms, rfl, Settles.mapM hgrows (settles_reportMethod store) ms _ last entries h hlast⟩

theorem remembers_foldl {calls : List Call} (hr : .reset ∉ calls) :
    memory.Remembers (calls.foldl Memory.after memory) := by
  induction calls generalizing memory with
  | nil => exact .refl memory
  | cons call calls ih =>
    have hne : call ≠ .reset := fun he => hr (he ▸ List.mem_cons_self ..)
    obtain ⟨-, hgrows, -⟩ := lasts_respond lasting_remembering hne memory trivial
    exact hgrows.trans (ih fun hm => hr (List.mem_cons_of_mem _ hm))

end TypeIdentity.Engine.Memory
