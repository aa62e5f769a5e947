import TypeIdentity.Proofs.Engine.Literals

/-! # Corresponding types

A static type and a runtime type correspond when they are built alike and every declaration with its
arguments faces a node of the same package whose printed name is the name of the declaration with
the canonical texts of the arguments.  The engine gives corresponding types one literal, whichever
it sees first.
-/
namespace TypeIdentity
open TypeLiteral

/-- The literal of a static type, read off its nodes; what has no literal form counts as `any`. -/
def StaticType.literal : StaticType → TypeLiteral
  | shape s => .shape (s.attach.mapChildren fun c => literal c.1)
  | named d args => .named d.path d.name (args.attach.map fun c => literal c.1)
  | param .. | tuple _ | union _ => .any
termination_by t => sizeOf t
decreasing_by all_goals exact sizeOf_lt_of_mem_children c.2

theorem StaticType.literal_shape (s : Shape StaticType) :
    (shape s).literal = .shape (s.mapChildren literal) := by
  rw [literal, Shape.attach_mapChildren]

theorem StaticType.literal_named (d : Decl) (args : List StaticType) :
    (named d args).literal = .named d.path d.name (args.map literal) := by
  rw [literal, List.attach_map_val]

/-- Every declaration in the type is defined and has all its arguments. -/
inductive Viewable (store : Store) : StaticType → Prop
  | shape {s : Shape StaticType} (hc : ∀ c ∈ s.children, Viewable store c) :
      Viewable store (.shape s)
  | named {d : Decl} {args : List StaticType} {v : NamedView StaticType}
      (hv : store.viewDecl d args = .ok v) (hc : ∀ c ∈ args, Viewable store c) :
      Viewable store (.named d args)

/-- A static type and a runtime type that denote the same. -/
inductive Corresponds (store : Store) : StaticType → RuntimeType → Prop
  | shape (z : Shape (StaticType × RuntimeType))
      (hc : ∀ c ∈ z.children, Corresponds store c.1 c.2) :
      Corresponds store (.shape (z.mapChildren Prod.fst)) (.shape (z.mapChildren Prod.snd))
  | named {d : Decl} {args : List StaticType} {v : NamedView StaticType} {n : Node}
      (hv : store.viewDecl d args = .ok v) (hc : ∀ c ∈ args, Viewable store c)
      (hbody : (store.node n).body.isSome) (hpath : n.path = d.path)
      (hname : n.name = (TypeLiteral.named d.path d.name (args.map StaticType.literal)).name) :
      Corresponds store (.named d args) (.named n)

variable {store : Store} {s : StaticType} {r : RuntimeType}

theorem Corresponds.viewable (h : Corresponds store s r) : Viewable store s := by
  induction h with
  | shape z _ ih =>
    refine .shape fun c hc => ?_
    obtain ⟨p, hp, rfl⟩ := Shape.exists_of_mem_children hc
    exact ih p hp
  | named hv hc => exact .named hv hc

theorem Viewable.denotes (h : Viewable store s) : Denotes store (.static s) s.literal := by
  induction h with
  | @shape s _ ih =>
    let z : Shape (HostType × TypeLiteral) := s.mapChildren fun c => (.static c, c.literal)
    have hd : Denotes store (.static (.shape s)) (.shape (z.mapChildren Prod.snd)) := by
      refine .shape z ?_ fun c hc => ?_
      · simp only [z, Shape.mapChildren_mapChildren]
        rfl
      · obtain ⟨c, hm, rfl⟩ := Shape.exists_of_mem_children hc
        exact ih c hm
    rw [StaticType.literal_shape]
    simpa only [z, Shape.mapChildren_mapChildren] using hd
  | @named d args v hv _ ih =>
    obtain ⟨hpath, hname, hargs⟩ := viewDecl_ok hv
    let zs : List (HostType × TypeLiteral) := args.map fun c => (.static c, c.literal)
    have hd : Denotes store (.static (.named d args)) (.named v.path v.name (zs.map Prod.snd)) := by
      refine .resolved zs (view_static_of hv) ?_ fun c hc => ?_
      · simp only [hargs, TypeArgs.map, zs, List.map_map]
        rfl
      · obtain ⟨c, hm, rfl⟩ := List.mem_map.1 hc
        exact ih c hm
    rw [StaticType.literal_named, ← hpath, ← hname]
    simpa only [zs, List.map_map, Function.comp_def] using hd

theorem ne_bracket_of_mem {text : List Char} (h : '[' ∉ text) :
    ∀ c ∈ text, decide (c ≠ '[') = true := by
  intro c hc
  apply decide_eq_true
  rintro rfl
  exact h hc

/-- The printed name of a type, up to its first bracket, is the declared name without one. -/
theorem takeWhile_name (path : String) {name : String} (args : List TypeLiteral)
    (hn : '[' ∉ name.toList) :
    (named path name args).name.toList.takeWhile (· ≠ '[') = name.toList := by
  have hkeep := ne_bracket_of_mem hn
  by_cases hne : args = []
  · subst hne
    exact List.takeWhile_eq_self_iff.2 hkeep
  · rw [toList_name path hne, List.takeWhile_append_of_pos hkeep]
    exact List.append_nil _

/-- A printed name is cut at its first bracket, which is not in the declared name. -/
theorem splitPrintedName_name (path : String) {name : String} (args : List TypeLiteral)
    (hn : '[' ∉ name.toList) :
    Store.splitPrintedName (named path name args).name = .ok (name,
      if args = [] then .resolved [] else .printed (",".intercalate (args.map canonical))) := by
  have htake := takeWhile_name path args hn
  have hkeep := ne_bracket_of_mem hn
  by_cases hne : args = []
  · subst hne
    have hdrop : name.toList.dropWhile (fun c => decide (c ≠ '[')) = [] :=
      List.dropWhile_eq_nil_iff.2 hkeep
    simp only [Store.splitPrintedName, TypeLiteral.name, hdrop, if_pos]
  · have hlist : (named path name args).name.toList = _ := toList_name path hne
    generalize ",".intercalate (args.map canonical) = text at hlist ⊢
    have hdrop : (named path name args).name.toList.dropWhile (fun c => decide (c ≠ '[')) =
        '[' :: (text.toList ++ [']']) := by
      rw [hlist, List.dropWhile_append_of_pos hkeep]
      rfl
    simp only [Store.splitPrintedName, hdrop, htake, List.getLast?_concat, List.dropLast_concat,
      String.ofList_toList, if_neg hne, if_pos]

theorem bracket_not_mem_name {path name : String} {args : List TypeLiteral}
    (h : (named path name args).WellFormed) : '[' ∉ name.toList := by
  have hn : NameWellFormed id path name args := h.here
  rcases hn with ⟨-, rfl, -⟩ | ⟨-, -, hi, -⟩
  · decide
  · intro hm
    exact absurd (Text.isOrdinary_of_isIdentifier hi _ hm) (by decide)

theorem Corresponds.denotes (h : Corresponds store s r) (hw : s.literal.WellFormed) :
    Denotes store (.runtime r) s.literal := by
  induction h with
  | shape z _ ih =>
    rw [StaticType.literal_shape, Shape.mapChildren_mapChildren] at hw ⊢
    let y : Shape (HostType × TypeLiteral) :=
      z.mapChildren fun c => (.runtime c.2, c.1.literal)
    have hd : Denotes store (.runtime (.shape (z.mapChildren Prod.snd)))
        (.shape (y.mapChildren Prod.snd)) := by
      refine .shape y ?_ fun c hc => ?_
      · simp only [y, Shape.mapChildren_mapChildren]
        rw [← Shape.mapChildren_mapChildren Prod.snd HostType.runtime]
        rfl
      · obtain ⟨c, hm, rfl⟩ := Shape.exists_of_mem_children hc
        refine ih c hm (hw.inside _ ?_)
        exact Shape.mem_children_map _ hm
    simpa only [y, Shape.mapChildren_mapChildren] using hd
  | @named d args v n _ _ hbody hpath hname =>
    rw [StaticType.literal_named] at hw ⊢
    have hsplit := splitPrintedName_name d.path (args.map StaticType.literal)
      (bracket_not_mem_name hw)
    obtain ⟨body, hbody⟩ := Option.isSome_iff_exists.1 hbody
    rw [← hname] at hsplit
    have hview := view_runtime_of (viewNode_of hbody hsplit)
    rw [← hpath]
    by_cases hne : args = []
    · subst hne
      exact .resolved [] hview rfl (by simp)
    · have hne' : args.map StaticType.literal ≠ [] := fun he => hne (List.map_eq_nil_iff.1 he)
      rw [if_neg hne'] at hview
      exact .printed hview hne' rfl

open Engine Memory

/-- Corresponding types have one literal, found for either of them first.  Signatures are asked to be
clear in all of it, and not only in type arguments, which alone are read back from a printed name:
the engine answers with what is interned under a canonical text, and a signature that is not clear
shares its text with another one. -/
theorem literals_of_corresponding (h : Corresponds store s r) (hw : s.literal.WellFormed)
    (hc : s.literal.ClearParams) (hu : s.literal.Everywhere fun u => Unmarked u.path)
    (config : Config) :
    (literalsFor store [.static s, .runtime r] { config }).1 = .ok [s.literal, s.literal] ∧
      (literalsFor store [.runtime r, .static s] { config }).1 = .ok [s.literal, s.literal] := by
  have hp : s.literal.Portable := ⟨hw, hc, hu⟩
  have hs := returns_literalFor h.viewable.denotes hp
  have hr := returns_literalFor (h.denotes hw) hp
  have hall : ∀ ts : List HostType, (∀ t ∈ ts, t = .static s ∨ t = .runtime r) →
      (literalsFor store ts { config }).1 = .ok (ts.map fun _ => s.literal) := by
    intro ts hts
    have hret : (outcome store).returns (literalsFor store ts) (ts.map fun _ => s.literal) := by
      apply (outcome store).mapM
      intro t ht
      rcases hts t ht with rfl | rfl
      · exact hs
      · exact hr
    obtain ⟨after, he, -⟩ := hret { config } (sound_fresh store config)
    rw [he]
  exact ⟨hall _ (by simp), hall _ (by simp)⟩

/-- An empty generic struct with an instance over integers and one over functions that take a type
of the package `..`. -/
def boxStore : Store where
  decls := #[⟨some (.shape (.struct [])), []⟩, ⟨some (.shape (.basic .int)), []⟩]
  nodes := #[⟨some (.struct []), []⟩, ⟨some (.struct []), []⟩]

/-- An instance of the generic struct in `boxStore`. -/
def staticBox (arg : StaticType) : StaticType := .named ⟨0, "lib", "Box", ["T"]⟩ [arg]

def intBox : Node := ⟨0, "lib", "Box[int]"⟩

/-- The functions that take a type of the package `..`. -/
def parentFunc : StaticType := .shape (.func ⟨[.named ⟨1, "..", "T", []⟩ []], [], false⟩)

def parentBox : Node := ⟨1, "lib", "Box[func(...T)]"⟩

theorem viewDecl_box (arg : StaticType) : boxStore.viewDecl ⟨0, "lib", "Box", ["T"]⟩ [arg] =
    .ok ⟨"lib", "Box", .resolved [arg], .shape (.struct []), []⟩ := by
  have hu : (StaticType.shape (.struct [])).substitute [arg] = .ok (.shape (.struct [])) := by
    rw [StaticType.substitute, if_neg (by simp), StaticType.replaceParams, Shape.attach_traverse]
    rfl
  exact viewDecl_of rfl rfl hu rfl

theorem corresponds_box {arg : StaticType} {n : Node} (ha : Viewable boxStore arg)
    (hbody : (boxStore.node n).body.isSome) (hpath : n.path = "lib")
    (hname : n.name = (TypeLiteral.named "lib" "Box" [arg.literal]).name) :
    Corresponds boxStore (staticBox arg) (.named n) := by
  refine .named (viewDecl_box arg) (fun c hc => ?_) hbody hpath hname
  rw [List.mem_singleton.1 hc]
  exact ha

theorem viewable_basic (b : BasicType) : Viewable store (.shape (.basic b)) :=
  .shape fun c hc => absurd hc (List.not_mem_nil (a := c))

theorem literals_of_corresponding_box :
    Corresponds boxStore (staticBox (.shape (.basic .int))) (.named intBox) ∧
      (literalsFor boxStore [.runtime (.named intBox), .static (staticBox (.shape (.basic .int)))]
        {}).1 = .ok
          [named "lib" "Box" [shape (.basic .int)], named "lib" "Box" [shape (.basic .int)]] := by
  have hlit : (staticBox (.shape (.basic .int))).literal =
      named "lib" "Box" [shape (.basic .int)] := by
    decide +kernel
  have hc : Corresponds boxStore (staticBox (.shape (.basic .int))) (.named intBox) :=
    corresponds_box (viewable_basic .int) rfl rfl (by decide +kernel)
  have hboth := literals_of_corresponding hc (by unfold WellFormed WellFormedAs; decide +kernel)
    (by unfold ClearParams; decide +kernel) (by decide +kernel) {}
  rw [hlit] at hboth
  exact ⟨hc, hboth.2⟩

theorem viewable_parentName : Viewable boxStore (.named ⟨1, "..", "T", []⟩ []) := by
  have hv : boxStore.viewDecl ⟨1, "..", "T", []⟩ [] =
      .ok ⟨"..", "T", .resolved [], .shape (.basic .int), []⟩ := rfl
  exact .named hv (by simp)

theorem viewable_parentFunc : Viewable boxStore parentFunc := by
  refine .shape fun c hc => ?_
  rw [List.mem_singleton.1 hc]
  exact viewable_parentName

theorem literalFor_parentBox {memory : Memory} (ht : memory.tables.literals = .empty)
    (hi : memory.identities = ∅) : ∃ after,
    literalFor boxStore (.runtime (.named parentBox)) memory =
      (.error (.unsupported (.unresolvedParameter "T")), after) := by
  have hsplit : Store.splitPrintedName parentBox.name = .ok ("Box", .printed "func(...T)") := rfl
  have hbody : (boxStore.node parentBox).body = some (.struct []) := rfl
  have hview := view_runtime_of (viewNode_of hbody hsplit)
  have hnone : memory.identity? (.runtime (.named parentBox)) = none := by
    rw [identity?_eq, hi]
    exact Std.HashMap.getElem?_empty
  have hargs : ∀ m : Memory, m.tables = memory.tables → ∃ after, parseArgs "func(...T)" m =
      (.error (.unsupported (.unresolvedParameter "T")), after) := by
    intro m hm
    have hparts : Scan.splitParts .comma "func(...T)".toList = .ok ["func(...T)".toList] := by
      decide +kernel
    obtain ⟨after, he⟩ := parse_error (ParseTables.parse_parentParam_empty (hm ▸ ht))
    refine ⟨after, ?_⟩
    unfold parseArgs
    rw [if_neg (by decide), hparts]
    apply (Outcome.run_bind rfl).trans
    rw [List.mapM_cons]
    exact Outcome.run_bind_error he
  rw [literalFor_eq, build, hview]
  apply retrieve_error hnone
  intro m hm
  obtain ⟨after, he⟩ := hargs m hm
  exact ⟨after, Outcome.run_map_error he⟩

theorem literals_of_corresponding_parentBox :
    Corresponds boxStore (staticBox parentFunc) (.named parentBox) ∧
      (staticBox parentFunc).literal.WellFormed ∧
      (staticBox parentFunc).literal.Everywhere (fun u => Unmarked u.path) ∧
      (literalsFor boxStore [.runtime (.named parentBox), .static (staticBox parentFunc)] {}).1 =
        .error (.unsupported (.unresolvedParameter "T")) := by
  refine ⟨?_, by unfold WellFormed WellFormedAs; decide +kernel, by decide +kernel, ?_⟩
  · exact corresponds_box viewable_parentFunc rfl rfl (by decide +kernel)
  · have hempty : ({} : Memory).tables.literals = .empty := rfl
    obtain ⟨after, he⟩ := literalFor_parentBox hempty rfl
    rw [literalsFor, List.mapM_cons]
    rw [Outcome.run_bind_error he]
end TypeIdentity
