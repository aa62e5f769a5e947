import TypeIdentity.Proofs.Engine.Members
import TypeIdentity.Proofs.Guarantee

/-! # What lookups report

A successful lookup reports the members that promotion gives, with the literals of their types; and
a lookup for which promotion gives nothing reports nothing.
-/
namespace TypeIdentity.Engine.Memory
open Promotion
variable {store : Store} {t : HostType} {memory : Memory}

/-- An entry shows a promoted method. -/
def Reports (p : Promoted HostType) (entry : MethodEntry) : Prop :=
  entry.name = p.method.name ∧ entry.pointerReceiver = p.method.pointerReceiver ∧
    entry.depth = p.depth

/-- What holds of the values that the engine returns, whatever it has learnt. -/
def returning : Guarantee EngineM := .maintaining fun _ => True

theorem ensures_reportMethod (p : Promoted HostType) :
    returning.ensures (reportMethod store p) (Reports p) := by
  have hany : returning.ensures (signatureLiteral store p.method.signature) fun _ => True :=
    fun _ _ _ _ _ => ⟨trivial, trivial⟩
  exact returning.bind hany fun signature _ => returning.pure ⟨rfl, rfl, rfl⟩

/-- The entries of a method set show the promoted methods, one by one. -/
theorem exists_promoted {entries : List MethodEntry}
    (h : (methods store t memory).1 = .ok entries) : ∃ promoted,
      Promotion.methods store.graph memory.config.maxTraversalDepth t = .ok promoted ∧
        ∃ zs : List (Promoted HostType × MethodEntry), zs.map Prod.fst = promoted ∧
          zs.map Prod.snd = entries ∧ ∀ z ∈ zs, Reports z.1 z.2 := by
  obtain ⟨counters, hrun⟩ := methods_run store t memory
  rw [hrun] at h
  cases hm : Promotion.methods store.graph memory.config.maxTraversalDepth t with
  | error e =>
    rw [hm] at h
    cases h
  | ok promoted =>
    rw [hm, Outcome.run_lift_bind] at h
    refine ⟨promoted, rfl, ?_⟩
    have hall : returning.ensures (promoted.mapM (reportMethod store)) _ :=
      returning.mapM_pairs fun p _ => ensures_reportMethod p
    exact (hall _ trivial entries _ (Prod.ext h rfl)).1

theorem exists_mem_promoted {entries : List MethodEntry}
    (h : (methods store t memory).1 = .ok entries) : ∃ promoted,
      Promotion.methods store.graph memory.config.maxTraversalDepth t = .ok promoted ∧
        ∀ name, (∃ entry ∈ entries, entry.name = name) ↔ ∃ p ∈ promoted, p.method.name = name := by
  obtain ⟨promoted, hp, zs, rfl, rfl, hz⟩ := exists_promoted h
  refine ⟨_, hp, fun name => ?_⟩
  constructor
  · rintro ⟨_, he, rfl⟩
    obtain ⟨z, hm, rfl⟩ := List.mem_map.1 he
    exact ⟨z.1, List.mem_map_of_mem hm, (hz z hm).1.symm⟩
  · rintro ⟨_, hp, rfl⟩
    obtain ⟨z, hm, rfl⟩ := List.mem_map.1 hp
    exact ⟨z.2, List.mem_map_of_mem hm, (hz z hm).1⟩

/-- The entry of a method without parameters and results. -/
def plainEntry (p : Promoted HostType) : MethodEntry :=
  ⟨p.method.name, .shape (.func ⟨[], [], false⟩), p.method.pointerReceiver, p.depth⟩

theorem reportMethods_plain {promoted : List (Promoted HostType)} (memory : Memory)
    (h : ∀ p ∈ promoted, p.method.signature = ⟨[], [], false⟩) :
    promoted.mapM (reportMethod store) memory = (.ok (promoted.map plainEntry), memory) := by
  induction promoted with
  | nil => rfl
  | cons p promoted ih =>
    have hp : reportMethod store p memory = (.ok (plainEntry p), memory) := by
      unfold reportMethod
      rw [h p (List.mem_cons_self ..)]
      rfl
    rw [List.mapM_cons, Outcome.run_bind hp,
      Outcome.run_bind (ih fun q hq => h q (List.mem_cons_of_mem _ hq))]
    rfl

theorem methods_plain {promoted : List (Promoted HostType)}
    (h : Promotion.methods store.graph memory.config.maxTraversalDepth t = .ok promoted)
    (hplain : ∀ p ∈ promoted, p.method.signature = ⟨[], [], false⟩) : ∃ counters,
      methods store t memory = (.ok (promoted.map plainEntry), { memory with counters }) := by
  obtain ⟨counters, hrun⟩ := methods_run store t memory
  refine ⟨counters, ?_⟩
  rw [hrun, h, Outcome.run_lift_bind, reportMethods_plain _ hplain]

theorem methods_of_promoted {promoted : List (Promoted HostType)}
    (h : Promotion.methods store.graph memory.config.maxTraversalDepth t = .ok promoted)
    (hplain : ∀ p ∈ promoted, p.method.signature = ⟨[], [], false⟩) :
    (methods store t memory).1 = .ok (promoted.map plainEntry) := by
  obtain ⟨counters, hrun⟩ := methods_plain h hplain
  rw [hrun]

theorem method?_eq (name : String) : (method? store t name memory).1 =
    (methods store t memory).1.map fun entries => entries.find? (·.name = name) := by
  have hfind : method? store t name = methods store t >>= fun entries =>
      pure (entries.find? (·.name = name)) := rfl
  cases hrun : methods store t memory with
  | mk answer after =>
    cases answer with
    | error e =>
      rw [hfind, Outcome.run_bind_error hrun]
      rfl
    | ok entries =>
      rw [hfind, Outcome.run_bind hrun]
      rfl

theorem exists_promoted_of_method? {name : String} {entry : MethodEntry}
    (h : (method? store t name memory).1 = .ok (some entry)) : ∃ promoted p,
      Promotion.methods store.graph memory.config.maxTraversalDepth t = .ok promoted ∧
        p ∈ promoted ∧ p.method.name = name := by
  rw [method?_eq] at h
  cases hm : (methods store t memory).1 with
  | error e =>
    rw [hm] at h
    cases h
  | ok entries =>
    rw [hm] at h
    have hfind : entries.find? (·.name = name) = some entry := Except.ok.inj h
    obtain ⟨promoted, hp, hnames⟩ := exists_mem_promoted hm
    have hname := List.find?_some hfind
    rw [decide_eq_true_iff] at hname
    obtain ⟨p, hp', hn⟩ := (hnames name).1 ⟨entry, List.mem_of_find?_eq_some hfind, hname⟩
    exact ⟨promoted, p, hp, hp', hn⟩

/-- A field that is reported has been found, and the literal of its type is reported with it. -/
theorem exists_field_of_fieldBy? {accepts : String → Bool} {found : Field TypeLiteral}
    (h : (fieldBy? store t accepts memory).1 = .ok (some found)) : ∃ f before,
      Promotion.field? store.graph memory.config.maxTraversalDepth accepts t = .ok (some f) ∧
        (literalFor store f.type before).1 = .ok found.type ∧ found.name = f.name ∧
          found.tag = f.tag ∧ found.embedded = f.embedded := by
  obtain ⟨counters, hrun⟩ := fieldBy?_run store t accepts memory
  rw [hrun] at h
  cases hf : Promotion.field? store.graph memory.config.maxTraversalDepth accepts t with
  | error e =>
    rw [hf] at h
    cases h
  | ok answer =>
    rw [hf, Outcome.run_lift_bind] at h
    cases answer with
    | none => cases h
    | some f =>
      refine ⟨f, { memory with counters }, rfl, ?_⟩
      have hreport : reportField store (some f) = literalFor store f.type >>= fun lit =>
          pure (some ⟨f.name, lit, f.tag, f.embedded⟩) := rfl
      rw [hreport] at h
      obtain ⟨lit, after, hlit, hstep⟩ := Outcome.exists_step h
      rw [hstep] at h
      obtain rfl := Option.some.inj (Except.ok.inj h)
      exact ⟨congrArg Prod.fst hlit, rfl, rfl, rfl⟩

/-- Where promotion gives no field, none is reported, and a failure is passed on. -/
theorem fieldBy?_of_none {accepts : String → Bool}
    (h : Promotion.field? store.graph memory.config.maxTraversalDepth accepts t = .ok none) :
    (fieldBy? store t accepts memory).1 = .ok none := by
  obtain ⟨counters, hrun⟩ := fieldBy?_run store t accepts memory
  rw [hrun, h]
  rfl

theorem fieldBy?_of_error {accepts : String → Bool} {e : Error}
    (h : Promotion.field? store.graph memory.config.maxTraversalDepth accepts t = .error e) :
    (fieldBy? store t accepts memory).1 = .error e := by
  obtain ⟨counters, hrun⟩ := fieldBy?_run store t accepts memory
  rw [hrun, h]
  rfl

end TypeIdentity.Engine.Memory
