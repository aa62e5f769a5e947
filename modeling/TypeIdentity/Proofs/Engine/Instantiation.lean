import TypeIdentity.Proofs.Engine.Recall
import TypeIdentity.Proofs.Skeletons

/-! # Instances and their texts

The types by which a generic type is instantiated may be put into its definition, or their texts
into the text of the definition.  The literal found for the type and the literal read from the text
are the same.
-/
namespace TypeIdentity
open TypeLiteral Engine Memory StaticType
variable {store : Store} {args : List StaticType} {s skeleton t : StaticType}

/-- Every reference in a skeleton is to a declaration that can be viewed when the parameters have
been replaced. -/
inductive ViewableWith (store : Store) (args : List StaticType) : StaticType → Prop
  | shape {s : Shape StaticType} (hc : ∀ c ∈ s.children, ViewableWith store args c) :
      ViewableWith store args (.shape s)
  | named {d : Decl} {bound : List StaticType}
      (hv : ∀ t, (named d bound).substitute args = .ok t → Shown store t)
      (hc : ∀ c ∈ bound, ViewableWith store args c) : ViewableWith store args (.named d bound)
  | param (index : UInt64) (name : String) : ViewableWith store args (.param index name)

/-- A skeleton and the types it may be instantiated with: it has no parameters but for these, its
references can be viewed afterwards, the names in it and in the types are well formed, and each of
the types has a literal. -/
structure Instantiable (store : Store) (args : List StaticType) (skeleton : StaticType) : Prop where
  nonempty : args ≠ []
  bounded : skeleton.Skeleton args.length
  viewable : ViewableWith store args skeleton
  wellFormed : (skeleton.pattern args.length).WellFormed
  unmarked : (skeleton.pattern args.length).Everywhere fun u => Unmarked u.path
  argsWellFormed : ∀ a ∈ args, a.literal.WellFormed
  argsUnmarked : ∀ a ∈ args, a.literal.Everywhere fun u => Unmarked u.path
  argsFound : ∀ a ∈ args, ∃ config lit, (literalFor store (.static a) { config }).1 = .ok lit

/-! ## The instance -/

theorem StaticType.Skeleton.substitute_eq (h : Skeleton args.length s) (hne : args ≠ []) :
    s.substitute args = .ok (s.filled args) := by
  rw [substitute, if_neg (by simpa using hne)]
  exact h.filled

theorem StaticType.Skeleton.findable (hs : Skeleton args.length s)
    (hv : ViewableWith store args s) (hne : args ≠ []) (ha : ∀ a ∈ args, Findable store a) :
    Findable store (s.filled args) := by
  induction hs with
  | @shape s hc ih =>
    obtain ⟨hin⟩ := hv
    rw [(filled_shape fun c hm => (hc c hm).filled).2]
    refine .parent ⟨_, rfl⟩ fun c hm => ?_
    obtain ⟨b, hb, rfl⟩ := Shape.exists_of_mem_children hm
    exact ih b hb (hin b hb)
  | @named d bound hl hc ih =>
    obtain ⟨-, hin⟩ | ⟨hshown, hin⟩ := hv
    have hfilled := (filled_named hl fun c hm => (hc c hm).filled).2
    have hsub := (Skeleton.named hl hc).substitute_eq hne
    rw [hfilled] at hsub ⊢
    refine .parent (hshown _ hsub) fun c hm => ?_
    rw [StaticType.children, filledArgs] at hm
    split at hm
    · exact ha c hm
    · obtain ⟨b, hb, rfl⟩ := List.mem_map.1 hm
      exact ih b hb (hin b hb)
  | @param index name hi =>
    rw [(filled_param hi).2]
    exact ha _ (List.getElem_mem hi)

theorem everyDecl_true (t : StaticType) : t.EveryDecl fun _ => True := by
  induction t using child_induct with
  | h t ih => exact .intro (fun _ _ _ => trivial) ih

theorem ofStatic_of_shown (h : Shown store t) : HostType.ofStatic t = .ok (.static t) := by
  cases t with
  | shape s => rfl
  | named d args =>
    obtain ⟨v, hv⟩ := shown_named.1 h
    exact Packages.ofStatic_named (arity_of_viewDecl hv)
  | param | tuple | union =>
    obtain ⟨v, hv⟩ := h
    cases hv

/-- A type that can be found has its own literal. -/
theorem literalFor_of_findable (h : Findable store t) (hw : t.literal.WellFormed)
    (hd : t.literal.Distinct) (config : Config) :
    (literalFor store (.static t) { config }).1 = .ok t.literal := by
  obtain ⟨lit, hlit⟩ := h.literal config
  have hall : Admits (fun _ => True) fun _ => True := ⟨fun _ => trivial, fun _ _ _ => trivial⟩
  have hfit := fits_of_literalFor hall (everyDecl_true t) hw hd hlit
  rw [hlit, literal_of_nominal hfit.1]

/-! ## The text -/

namespace Instantiable

theorem legible (h : Instantiable store args skeleton)
    (hc : (skeleton.literalAt (args.map literal)).ClearParams) :
    (skeleton.literalAt (args.map literal)).Legible id Unmarked := by
  have hlen : (args.map literal).length = args.length := List.length_map ..
  refine ⟨?_, hc, ?_⟩
  · refine h.bounded.wellFormed hlen h.wellFormed fun l hl => ?_
    obtain ⟨a, ha, rfl⟩ := List.mem_map.1 hl
    exact h.argsWellFormed a ha
  · refine (h.bounded.unmarked hlen h.unmarked fun l hl => ?_).imp fun _ hu _ => hu
    obtain ⟨a, ha, rfl⟩ := List.mem_map.1 hl
    exact h.argsUnmarked a ha

theorem findable (h : Instantiable store args skeleton) :
    Findable store (skeleton.filled args) := by
  refine h.bounded.findable h.viewable h.nonempty fun a ha => ?_
  obtain ⟨config, hfound⟩ := h.argsFound a ha
  exact findable_of_fresh hfound

/-- The text with the texts of the arguments is read as the literal with their literals. -/
theorem parse_textAt (h : Instantiable store args skeleton)
    (hc : (skeleton.literalAt (args.map literal)).ClearParams) (config : Config) :
    (Memory.parse (skeleton.textAt (args.map fun a => a.literal.canonical)) { config }).1 =
      .ok (skeleton.literalAt (args.map literal)) := by
  have hlen : (args.map literal).length = args.length := List.length_map ..
  have htext := h.bounded.transcribes hlen h.wellFormed (h.legible hc)
  rw [List.map_map] at htext
  rw [textAt, List.map_map]
  exact ParseTables.parse_transcript htext LiteralTable.truthful_empty

end Instantiable

/-- Instantiation agrees with textual replacement.  The type that a skeleton is instantiated to has a
literal, and this is the one that is read from the text of the skeleton when the texts of the
arguments stand in the places of its parameters. -/
theorem literal_of_instance (h : Instantiable store args skeleton)
    (hc : (skeleton.literalAt (args.map literal)).ClearParams) (config : Config) :
    ∃ t, skeleton.substitute args = .ok t ∧ HostType.ofStatic t = .ok (.static t) ∧
      (literalFor store (.static t) { config }).1 = .ok t.literal ∧
      (Memory.parse (skeleton.textAt (args.map fun a => a.literal.canonical)) { config }).1 =
        .ok t.literal := by
  have hlit := h.bounded.literal_filled
  have hl := h.legible hc
  refine ⟨_, h.bounded.substitute_eq h.nonempty, ofStatic_of_shown h.findable.shown, ?_, ?_⟩
  · rw [← hlit] at hl hc
    exact literalFor_of_findable h.findable hl.wellFormed
      (distinct_of_wellFormed hl.wellFormed hc) config
  · rw [hlit]
    exact h.parse_textAt hc config

/-! ## Two skeletons -/

def boxDecl : Decl := ⟨0, "lib", "Box", ["T"]⟩

/-- The functions from channels of a type to boxes of it; the box takes over the parameter. -/
def boxing : StaticType :=
  .shape (.func ⟨[.shape (.chan .both (.param 0 "T"))], [.named boxDecl []], false⟩)

/-- Channels from which integers can be received. -/
def receiver : StaticType := .shape (.chan .recv (.shape (.basic .int)))

theorem substitute_boxDecl (arg : StaticType) :
    (named boxDecl []).substitute [arg] = .ok (staticBox arg) := by
  have hall : [arg].length = boxDecl.arity := rfl
  rw [substitute, if_neg (by simp), replaceParams, if_neg (by decide), if_pos rfl, if_pos hall]
  rfl

theorem viewable_receiver : Viewable store receiver := by
  refine .shape fun c hc => ?_
  rw [List.mem_singleton.1 hc]
  exact viewable_basic .int

theorem instantiable_one {arg : StaticType} (hs : skeleton.Skeleton 1)
    (hv : ViewableWith store [arg] skeleton) (hw : (skeleton.pattern 1).WellFormed)
    (hu : (skeleton.pattern 1).Everywhere fun u => Unmarked u.path) (ha : arg.literal.WellFormed)
    (hm : arg.literal.Everywhere fun u => Unmarked u.path) (hview : Viewable store arg) :
    Instantiable store [arg] skeleton where
  nonempty := List.cons_ne_nil arg []
  bounded := hs
  viewable := hv
  wellFormed := hw
  unmarked := hu
  argsWellFormed _ h := List.mem_singleton.1 h ▸ ha
  argsUnmarked _ h := List.mem_singleton.1 h ▸ hm
  argsFound _ h := List.mem_singleton.1 h ▸ ⟨{}, (findable_of_viewable hview).literal {}⟩

theorem instantiable_boxing : Instantiable boxStore [receiver] boxing := by
  refine instantiable_one ?_ ?_ ?_ (by decide +kernel) ?_ (by decide +kernel) viewable_receiver
  · refine .shape fun c hc => ?_
    rcases List.mem_pair.1 hc with rfl | rfl
    · refine .shape fun c hc => ?_
      rw [List.mem_singleton.1 hc]
      exact .param Nat.one_pos
    · exact .named (.inr ⟨rfl, rfl⟩) (by simp)
  · refine .shape fun c hc => ?_
    rcases List.mem_pair.1 hc with rfl | rfl
    · refine .shape fun c hc => ?_
      rw [List.mem_singleton.1 hc]
      exact .param ..
    · refine .named (fun t ht => ?_) (by simp)
      obtain rfl := Except.ok.inj ((substitute_boxDecl receiver).symm.trans ht)
      exact shown_named.2 ⟨_, viewDecl_box receiver⟩
  · unfold WellFormed WellFormedAs
    decide +kernel
  · unfold WellFormed WellFormedAs
    decide +kernel

/-- The element of the channel is put in without parentheses, and they are there in the literal. -/
theorem literal_of_instance_boxing : Instantiable boxStore [receiver] boxing ∧
    ∃ t, boxing.substitute [receiver] = .ok t ∧
      t.literal.canonical = "func(chan (<-chan int)) lib.Box[<-chan int]" ∧
      (literalFor boxStore (.static t) {}).1 = .ok t.literal ∧
      (Memory.parse "func(chan <-chan int) lib.Box[<-chan int]" {}).1 = .ok t.literal := by
  have hc : (boxing.literalAt ([receiver].map literal)).ClearParams := by
    unfold ClearParams
    decide +kernel
  have htext : boxing.textAt ([receiver].map fun a => a.literal.canonical) =
      "func(chan <-chan int) lib.Box[<-chan int]" := by
    decide +kernel
  have hcanonical : (boxing.literalAt ([receiver].map literal)).canonical =
      "func(chan (<-chan int)) lib.Box[<-chan int]" := by
    decide +kernel
  obtain ⟨t, ht, -, hfound, hparse⟩ := literal_of_instance instantiable_boxing hc {}
  have hlit : t.literal = boxing.literalAt ([receiver].map literal) := by
    have hs := instantiable_boxing.bounded.substitute_eq instantiable_boxing.nonempty
    rw [Except.ok.inj (ht.symm.trans hs)]
    exact instantiable_boxing.bounded.literal_filled
  rw [htext] at hparse
  exact ⟨instantiable_boxing, t, ht, hlit ▸ hcanonical, hfound, hparse⟩

/-- The functions that take a parameter. -/
def taking : StaticType := .shape (.func ⟨[.param 0 "T"], [], false⟩)

/-- A type of the package `..`. -/
def parentName : StaticType := .named ⟨1, "..", "T", []⟩ []

theorem instantiable_taking : Instantiable boxStore [parentName] taking := by
  refine instantiable_one ?_ ?_ ?_ (by decide +kernel) ?_ (by decide +kernel) viewable_parentName
  · refine .shape fun c hc => ?_
    rw [List.mem_singleton.1 hc]
    exact .param Nat.one_pos
  · refine .shape fun c hc => ?_
    rw [List.mem_singleton.1 hc]
    exact .param ..
  · unfold WellFormed WellFormedAs
    decide +kernel
  · unfold WellFormed WellFormedAs
    decide +kernel

/-- The points of the package path are read as an ellipsis. -/
theorem parse_textAt_taking : Instantiable boxStore [parentName] taking ∧
    ∃ t lit, taking.substitute [parentName] = .ok t ∧
      (literalFor boxStore (.static t) {}).1 = .ok lit ∧
      (Memory.parse (taking.textAt ([parentName].map fun a => a.literal.canonical)) {}).1 =
        .error (.unsupported (.unresolvedParameter "T")) := by
  have h := instantiable_taking
  obtain ⟨lit, hlit⟩ := h.findable.literal {}
  have htext : taking.textAt ([parentName].map fun a => a.literal.canonical) =
      parentParam.canonical := by
    decide +kernel
  have hempty : ({} : Memory).tables.literals = .empty := rfl
  obtain ⟨after, he⟩ := parse_error (ParseTables.parse_parentParam_empty hempty)
  refine ⟨h, _, lit, h.bounded.substitute_eq h.nonempty, hlit, ?_⟩
  rw [htext]
  exact congrArg Prod.fst he

end TypeIdentity
