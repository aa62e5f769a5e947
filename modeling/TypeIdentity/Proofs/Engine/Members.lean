import TypeIdentity.Engine.Promotion
import TypeIdentity.Proofs.Engine.Correspondence
import TypeIdentity.Proofs.Promotion.Twins

/-! # Members of corresponding types

A correspondence that extends to everything the views show makes the graphs of static and of runtime
types twins: identity on either side is equality of literals.  Member resolution therefore runs in
lockstep on corresponding types, and what it finds is reported with the same literals.
-/
namespace TypeIdentity
open TypeLiteral Engine Memory Promotion

/-- A static and a runtime type that show related types. -/
inductive Linked (store : Store) (R : StaticType → RuntimeType → Prop) :
    StaticType → RuntimeType → Prop
  | shape (z : Shape (StaticType × RuntimeType)) (hc : ∀ c ∈ z.children, R c.1 c.2) :
      Linked store R (.shape (z.mapChildren Prod.fst)) (.shape (z.mapChildren Prod.snd))
  | named {d : Decl} {args : List StaticType} {v : NamedView StaticType} {n : Node}
      {body : Shape RuntimeType} (methods : List (DeclaredMethod (StaticType × RuntimeType)))
      (hv : store.viewDecl d args = .ok v) (hc : ∀ c ∈ args, Viewable store c)
      (hbody : (store.node n).body = some body) (hpath : n.path = d.path)
      (hname : n.name = (TypeLiteral.named d.path d.name (args.map StaticType.literal)).name)
      (hu : R v.underlying (.shape body)) (hs : v.methods = methods.map (·.map Prod.fst))
      (hr : (store.node n).methods = methods.map (·.map Prod.snd))
      (hm : ∀ m ∈ methods, ∀ c ∈ m.signature.types, R c.1 c.2) :
      Linked store R (.named d args) (.named n)

/-- A correspondence of types that extends to all types their views show. -/
def Correspondence (store : Store) (R : StaticType → RuntimeType → Prop) : Prop :=
  ∀ s r, R s r → Linked store R s r

variable {store : Store} {R : StaticType → RuntimeType → Prop}

theorem Correspondence.corresponds (hR : Correspondence store R) {s : StaticType} {r : RuntimeType}
    (h : R s r) : Corresponds store s r := by
  induction s generalizing r with
  | shape level ih =>
    generalize hl : StaticType.shape level = s at h
    cases hR s r h with
    | shape z hc =>
      obtain rfl := StaticType.shape.inj hl
      refine .shape z fun c hm => ih c.1 ?_ (hc c hm)
      exact Shape.mem_children_map _ hm
    | named => cases hl
  | named d args _ =>
    cases hR _ r h with
    | named methods hv hc hbody hpath hname =>
      exact .named hv hc (Option.isSome_iff_exists.2 ⟨_, hbody⟩) hpath hname
  | param | tuple | union => cases hR _ r h

/-- Related types, as the types of one graph. -/
abbrev Pair (R : StaticType → RuntimeType → Prop) : Type :=
  {c : StaticType × RuntimeType // R c.1 c.2}

namespace Pair

def static (c : Pair R) : HostType := .static c.1.1

def runtime (c : Pair R) : HostType := .runtime c.1.2

end Pair

theorem exists_shape (z : Shape (StaticType × RuntimeType)) (hc : ∀ c ∈ z.children, R c.1 c.2) :
    ∃ y : Shape (Pair R), z = y.mapChildren Subtype.val :=
  ⟨z.attachWith _ hc, (z.attachWith_mapChildren hc).symm⟩

theorem exists_methods (methods : List (DeclaredMethod (StaticType × RuntimeType)))
    (hm : ∀ m ∈ methods, ∀ c ∈ m.signature.types, R c.1 c.2) :
    ∃ ms : List (DeclaredMethod (Pair R)), methods = ms.map (·.map Subtype.val) := by
  induction methods with
  | nil => exact ⟨[], rfl⟩
  | cons m methods ih =>
    obtain ⟨ms, rfl⟩ := ih fun k hk => hm k (List.mem_cons_of_mem _ hk)
    have hsig : ∀ c ∈ m.signature.types, R c.1 c.2 := hm m (List.mem_cons_self ..)
    refine ⟨⟨m.name, m.signature.attachWith _ hsig, m.pointerReceiver⟩ :: ms, ?_⟩
    rw [List.map_cons, DeclaredMethod.map, m.signature.attachWith_map hsig]

theorem methods_map {α β γ : Type} (f : α → β) (g : β → γ) (ms : List (DeclaredMethod α)) :
    (ms.map (·.map f)).map (·.map g) = ms.map (·.map fun c => g (f c)) := by
  simp [DeclaredMethod.map, Signature.map]

/-- In a correspondence, the static and the runtime types form twin graphs. -/
theorem twins_of_correspondence (hR : Correspondence store R)
    (hp : ∀ s r, R s r → s.literal.Portable) :
    Twins store.graph store.graph (Pair.static (R := R)) Pair.runtime where
  view c := by
    obtain ⟨⟨s, r⟩, h⟩ := c
    cases hR s r h with
    | shape z hc =>
      obtain ⟨y, rfl⟩ := exists_shape z hc
      refine ⟨.shape y, .resolved [], .resolved [], ?_, ?_⟩
      · change Except.ok (View.shape (Shape.mapChildren HostType.static _)) = _
        rw [Shape.mapChildren_mapChildren, Shape.mapChildren_mapChildren]
        rfl
      · change Except.ok (View.shape (Shape.mapChildren HostType.runtime _)) = _
        rw [Shape.mapChildren_mapChildren, Shape.mapChildren_mapChildren]
        rfl
    | @named d args v n body methods hv hc hbody hpath hname hu hs hr hm =>
      obtain ⟨ms, rfl⟩ := exists_methods methods hm
      have hw := (hp _ _ h).wellFormed
      rw [StaticType.literal_named] at hw
      have hsplit := splitPrintedName_name d.path (args.map StaticType.literal)
        (bracket_not_mem_name hw)
      rw [← hname] at hsplit
      obtain ⟨hvpath, hvname, -⟩ := viewDecl_ok hv
      refine ⟨.named ⟨d.path, d.name, .resolved [], ⟨(v.underlying, .shape body), hu⟩, ms⟩,
        v.args.map .static, (if args.map StaticType.literal = [] then .resolved [] else .printed
          (",".intercalate ((args.map StaticType.literal).map canonical)) :
          TypeArgs RuntimeType).map .runtime, (view_static_of hv).trans ?_,
      (view_runtime_of (viewNode_of hbody hsplit)).trans ?_⟩
      · rw [View.map, View.image, hvpath, hvname, hs, methods_map, methods_map]
        rfl
      · rw [View.map, View.image, hpath, hr, methods_map, methods_map]
        rfl
  same c d := by
    have hc := hR.corresponds c.2
    have hd := hR.corresponds d.2
    have hpc := hp _ _ c.2
    have hpd := hp _ _ d.2
    have hrc := hc.denotes hpc.wellFormed
    have hrd := hd.denotes hpd.wellFormed
    refine Bool.eq_iff_iff.2 ⟨fun h => ?_, fun h => ?_⟩
    · have heq := hc.viewable.denotes.eq_of_same hd.viewable.denotes hpc hpd h
      rw [heq] at hrc
      exact same_runtime_of_denotes hrc hrd
    · have heq := hrc.eq_of_same hrd hpc hpd h
      have hsc := hc.viewable.denotes
      rw [heq] at hsc
      exact same_static_of_denotes hsc hd.viewable.denotes

/-! ## What the engine reports -/

theorem returns_static (hR : Correspondence store R) (hp : ∀ s r, R s r → s.literal.Portable)
    (c : Pair R) : (outcome store).returns (literalFor store c.static) c.1.1.literal :=
  returns_literalFor (hR.corresponds c.2).viewable.denotes (hp _ _ c.2)

theorem returns_runtime (hR : Correspondence store R) (hp : ∀ s r, R s r → s.literal.Portable)
    (c : Pair R) : (outcome store).returns (literalFor store c.runtime) c.1.1.literal :=
  returns_literalFor ((hR.corresponds c.2).denotes (hp _ _ c.2).wellFormed) (hp _ _ c.2)

def reportMethod (store : Store) (m : Promoted HostType) : EngineM MethodEntry := do
  let signature ← signatureLiteral store m.method.signature
  return ⟨m.method.name, signature, m.method.pointerReceiver, m.depth⟩

def reportField (store : Store) : Option (Field HostType) → EngineM (Option (Field TypeLiteral))
  | none => return none
  | some f => return some ⟨f.name, ← literalFor store f.type, f.tag, f.embedded⟩

theorem reportField_eq (store : Store) : reportField store = fun
    | none => return none
    | some f => return some ⟨f.name, ← literalFor store f.type, f.tag, f.embedded⟩ := by
  funext found
  cases found <;> rfl

theorem methods_run (store : Store) (t : HostType) (memory : Memory) : ∃ counters,
    methods store t memory =
      ((liftM (Promotion.methods store.graph memory.config.maxTraversalDepth t) : EngineM _) >>=
        fun ms => ms.mapM (reportMethod store)) { memory with counters } :=
  ⟨_, rfl⟩

theorem fieldBy?_run (store : Store) (t : HostType) (accepts : String → Bool) (memory : Memory) :
    ∃ counters, fieldBy? store t accepts memory =
      ((liftM (Promotion.field? store.graph memory.config.maxTraversalDepth accepts t) :
        EngineM _) >>= reportField store) { memory with counters } := by
  rw [reportField_eq]
  exact ⟨_, rfl⟩

/-- The entry of a method whose types have literals. -/
def methodEntry {α : Type} (literal : α → TypeLiteral) (m : Promoted α) : MethodEntry :=
  ⟨m.method.name, .shape (.func (m.method.signature.map literal)), m.method.pointerReceiver,
    m.depth⟩

section Reports
variable {α : Type} {literal : α → TypeLiteral} {host : α → HostType}
  (h : ∀ c, (outcome store).returns (literalFor store (host c)) (literal c))
include h

theorem returns_reportMethod (m : Promoted α) :
    (outcome store).returns (reportMethod store (m.map host)) (methodEntry literal m) := by
  have hs : (outcome store).returns ((m.method.signature.map host).traverse (literalFor store))
      (m.method.signature.map literal) := by
    rw [Signature.traverse_map]
    exact (outcome store).traverse_signature fun c _ => h c
  have hsignature : (outcome store).returns (signatureLiteral store (m.method.signature.map host))
      (.shape (.func (m.method.signature.map literal))) :=
    (outcome store).bind hs ((outcome store).pure _)
  exact (outcome store).bind hsignature ((outcome store).pure _)

theorem returns_reportField (found : Option (Field α)) : (outcome store).returns
    (reportField store (found.map (Field.map host))) (found.map (Field.map literal)) := by
  cases found with
  | none => exact (outcome store).pure none
  | some f => exact (outcome store).bind (h f.type) ((outcome store).pure _)

end Reports

/-- Both fail at the traversal limit, or both answer alike. -/
def SameAnswer {α : Type} (x y : Except Error α) : Prop :=
  (∃ limit s t, x = .error (.traversalLimit limit s) ∧ y = .error (.traversalLimit limit t)) ∨
    ∃ a, x = .ok a ∧ y = .ok a

theorem sameAnswer_of_lockstep {α β γ ε : Type} {p : γ → α} {q : γ → β} {x : Except Error α}
    {y : Except Error β} {f : α → EngineM ε} {g : β → EngineM ε} {answer : γ → ε}
    {memory memory' : Memory} (hl : Lockstep p q x y)
    (hf : ∀ c, (outcome store).returns (f (p c)) (answer c))
    (hg : ∀ c, (outcome store).returns (g (q c)) (answer c)) (hm : Sound store memory)
    (hm' : Sound store memory') :
    SameAnswer ((liftM x >>= f) memory).1 ((liftM y >>= g) memory').1 := by
  cases hl with
  | limit n s t => exact .inl ⟨n, s, t, rfl, rfl⟩
  | ok c =>
    obtain ⟨after, he, -⟩ := hf c memory hm
    obtain ⟨after', he', -⟩ := hg c memory' hm'
    exact .inr ⟨answer c, congrArg Prod.fst he, congrArg Prod.fst he'⟩

/-- Corresponding types have the same methods and fields, or exceed the traversal limit alike. -/
theorem members_of_correspondence (hR : Correspondence store R)
    (hw : ∀ s r, R s r → s.literal.WellFormed) (hc : ∀ s r, R s r → s.literal.ClearParams)
    (hu : ∀ s r, R s r → s.literal.Everywhere fun u => Unmarked u.path) {s : StaticType}
    {r : RuntimeType} (h : R s r) (config : Config) :
    SameAnswer (methods store (.static s) { config }).1 (methods store (.runtime r) { config }).1 ∧
      ∀ accepts, SameAnswer (fieldBy? store (.static s) accepts { config }).1
        (fieldBy? store (.runtime r) accepts { config }).1 := by
  have hp : ∀ s r, R s r → s.literal.Portable := by
    intro s r h
    exact ⟨hw s r h, hc s r h, hu s r h⟩
  have ht := twins_of_correspondence hR hp
  have hs := returns_static hR hp
  have hr := returns_runtime hR hp
  have hsound : ∀ counters, Sound store { config, counters } := fun _ =>
    ⟨(sound_fresh store config).literals, (sound_fresh store config).identities⟩
  have hmethods : ∀ (host : Pair R → HostType) (_ : ∀ c, (outcome store).returns
      (literalFor store (host c)) c.1.1.literal) (ms : List (Promoted (Pair R))),
      (outcome store).returns ((ms.map (Promoted.map host)).mapM (reportMethod store))
        (ms.map (methodEntry fun c => c.1.1.literal)) := by
    intro host hhost ms
    rw [List.mapM_map]
    exact (outcome store).mapM fun m _ => returns_reportMethod hhost m
  constructor
  · obtain ⟨_, hm⟩ := methods_run store (.static s) { config }
    obtain ⟨_, hm'⟩ := methods_run store (.runtime r) { config }
    rw [hm, hm']
    exact sameAnswer_of_lockstep (methods_twins ht _ ⟨(s, r), h⟩) (hmethods _ hs) (hmethods _ hr)
      (hsound _) (hsound _)
  · intro accepts
    obtain ⟨_, hf⟩ := fieldBy?_run store (.static s) accepts { config }
    obtain ⟨_, hf'⟩ := fieldBy?_run store (.runtime r) accepts { config }
    rw [hf, hf']
    exact sameAnswer_of_lockstep (field?_twins ht _ accepts ⟨(s, r), h⟩) (returns_reportField hs)
      (returns_reportField hr) (hsound _) (hsound _)

/-- A list type that embeds a pointer to itself, defined in both representations. -/
def listStore : Store where
  decls := #[⟨some (.shape (.struct [⟨"List", .shape (.pointer (.named ⟨0, "lib", "List", []⟩ [])),
    "", true⟩])), [⟨"Len", ⟨[], [.shape (.basic .int)], false⟩, true⟩]⟩]
  nodes := #[⟨some (.struct [⟨"List", .shape (.pointer (.named ⟨0, "lib", "List"⟩)), "", true⟩]),
    [⟨"Len", ⟨[], [.shape (.basic .int)], false⟩, true⟩]⟩]

def staticList : StaticType := .named ⟨0, "lib", "List", []⟩ []

def runtimeList : RuntimeType := .named ⟨0, "lib", "List"⟩

/-- The types that views of the list type show. -/
inductive ListPair : StaticType → RuntimeType → Prop
  | list : ListPair staticList runtimeList
  | body : ListPair (.shape (.struct [⟨"List", .shape (.pointer staticList), "", true⟩]))
      (.shape (.struct [⟨"List", .shape (.pointer runtimeList), "", true⟩]))
  | pointer : ListPair (.shape (.pointer staticList)) (.shape (.pointer runtimeList))
  | int : ListPair (.shape (.basic .int)) (.shape (.basic .int))

theorem correspondence_list : Correspondence listStore ListPair := by
  intro s r h
  cases h with
  | list =>
    have hv : listStore.viewDecl ⟨0, "lib", "List", []⟩ [] = .ok ⟨"lib", "List", .resolved [],
        .shape (.struct [⟨"List", .shape (.pointer staticList), "", true⟩]),
        [⟨"Len", ⟨[], [.shape (.basic .int)], false⟩, true⟩]⟩ := rfl
    refine .named [⟨"Len", ⟨[], [(.shape (.basic .int), .shape (.basic .int))], false⟩, true⟩] hv
      (by simp) rfl rfl rfl .body rfl rfl ?_
    intro m hm c hc
    obtain rfl := List.mem_singleton.1 hm
    obtain rfl := List.mem_singleton.1 hc
    exact .int
  | body =>
    refine .shape (.struct [⟨"List", (.shape (.pointer staticList), .shape (.pointer runtimeList)),
      "", true⟩]) fun c hc => ?_
    obtain rfl := List.mem_singleton.1 hc
    exact .pointer
  | pointer =>
    refine .shape (.pointer (staticList, runtimeList)) fun c hc => ?_
    obtain rfl := List.mem_singleton.1 hc
    exact .list
  | int => exact .shape (.basic .int) fun c hc => absurd hc (List.not_mem_nil (a := c))

theorem members_of_correspondence_list : Correspondence listStore ListPair ∧
    SameAnswer (methods listStore (.static staticList) {}).1
      (methods listStore (.runtime runtimeList) {}).1 := by
  have hw : ∀ s r, ListPair s r → s.literal.WellFormed := by
    intro s r h
    unfold WellFormed WellFormedAs
    cases h <;> decide +kernel
  have hc : ∀ s r, ListPair s r → s.literal.ClearParams := by
    intro s r h
    unfold ClearParams
    cases h <;> decide +kernel
  have hu : ∀ s r, ListPair s r → s.literal.Everywhere fun u => Unmarked u.path := by
    intro s r h
    cases h <;> decide +kernel
  exact ⟨correspondence_list,
    (members_of_correspondence correspondence_list hw hc hu .list {}).1⟩

/-- A struct with a field whose printed type cannot be read. -/
def staticHolder : StaticType := .shape (.struct [⟨"F", staticBox parentFunc, "", false⟩])

def runtimeHolder : RuntimeType := .shape (.struct [⟨"F", .named parentBox, "", false⟩])

inductive HolderPair : StaticType → RuntimeType → Prop
  | holder : HolderPair staticHolder runtimeHolder
  | box : HolderPair (staticBox parentFunc) (.named parentBox)
  | empty : HolderPair (.shape (.struct [])) (.shape (.struct []))

theorem correspondence_holder : Correspondence boxStore HolderPair := by
  intro s r h
  cases h with
  | holder =>
    refine .shape (.struct [⟨"F", (staticBox parentFunc, .named parentBox), "", false⟩])
      fun c hc => ?_
    obtain rfl := List.mem_singleton.1 hc
    exact .box
  | box =>
    refine .named [] (viewDecl_box parentFunc) (fun c hc => ?_) rfl rfl (by decide +kernel) .empty
      rfl rfl (by simp)
    rw [List.mem_singleton.1 hc]
    exact viewable_parentFunc
  | empty => exact .shape (.struct []) fun c hc => absurd hc (List.not_mem_nil (a := c))

theorem members_of_correspondence_holder : Correspondence boxStore HolderPair ∧
    HolderPair staticHolder runtimeHolder ∧
    (∀ s r, HolderPair s r → s.literal.WellFormed) ∧
    (∀ s r, HolderPair s r → s.literal.Everywhere fun u => Unmarked u.path) ∧
    (∀ s r s' r', HolderPair s r → HolderPair s' r' →
      (s.same s' = true → s = s') ∧ (r.same r' = true → r = r')) ∧
    ¬SameAnswer (fieldBy? boxStore (.static staticHolder) (· = "F") {}).1
      (fieldBy? boxStore (.runtime runtimeHolder) (· = "F") {}).1 := by
  refine ⟨correspondence_holder, .holder, ?_, ?_, ?_, ?_⟩
  · intro s r h
    unfold WellFormed WellFormedAs
    cases h <;> decide +kernel
  · intro s r h
    cases h <;> decide +kernel
  · intro s r s' r' h h'
    constructor
    · intro hs
      cases h <;> cases h' <;> first | rfl | exact absurd hs (by decide +kernel)
    · intro hr
      cases h <;> cases h' <;> first | rfl | exact absurd hr (by decide +kernel)
  · obtain ⟨counters, hf⟩ := fieldBy?_run boxStore (.runtime runtimeHolder) (· = "F") {}
    have hfield : Promotion.field? boxStore.graph ({} : Memory).config.maxTraversalDepth (· = "F")
        (.runtime runtimeHolder) = .ok (some ⟨"F", .runtime (.named parentBox), "", false⟩) := by
      have hv : boxStore.graph.view (.runtime runtimeHolder) =
          .ok (.shape (.struct [⟨"F", .runtime (.named parentBox), "", false⟩])) := rfl
      exact search_struct rfl hv
    have hempty : ({ counters } : Memory).tables.literals = .empty := rfl
    obtain ⟨after, he⟩ := literalFor_parentBox hempty rfl
    have hreport : reportField boxStore (some ⟨"F", .runtime (.named parentBox), "", false⟩)
        { counters } = (.error (.unsupported (.unresolvedParameter "T")), after) :=
      Outcome.run_bind_error he
    rw [hf, hfield, Outcome.run_lift_bind, hreport]
    rintro (⟨_, _, _, -, h⟩ | ⟨_, -, h⟩)
    · cases h
    · cases h

end TypeIdentity
