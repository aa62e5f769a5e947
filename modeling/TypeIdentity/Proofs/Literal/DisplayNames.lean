import TypeIdentity.Literal.PackageName
import TypeIdentity.Proofs.Literal.RoundTrip

/-! # Parsing what is displayed

A displayed literal shows the short name of a package in the place of its path.  Short names are
identifiers, so what is displayed is a type id again, of the literal in which every package is found
under its short name.
-/
namespace TypeIdentity
open Text TypeLiteral

/-! ## Short names -/

/-- The short name of a package is an identifier, whatever the path is. -/
theorem isIdentifier_shortPackageName (path : String) :
    isIdentifier (shortPackageName path).toList = true := by
  let name := (namingElement path.toList).map fun c => if isIdentRest c then c else '_'
  have hrest : ∀ c ∈ name, isIdentRest c = true := by
    intro c hc
    obtain ⟨d, -, rfl⟩ := List.mem_map.1 hc
    split
    · assumption
    · rfl
  have hname : (shortPackageName path).toList =
      if isIdentifier name = true then name else '_' :: name := String.toList_ofList
  rw [hname]
  split
  · assumption
  · exact isIdentifier_iff.2 ⟨'_', name, rfl, by decide, hrest⟩

theorem shortPackageName_ne_empty (path : String) : shortPackageName path ≠ "" := by
  intro he
  exact ne_nil_of_isIdentifier (isIdentifier_shortPackageName path) (by rw [he]; rfl)

namespace TypeLiteral

/-! ## Other package paths -/

/-- The literal with every package path that is not empty replaced. -/
def mapPaths (f : String → String) : TypeLiteral → TypeLiteral
  | shape s => shape (s.attach.mapChildren fun c => mapPaths f c.1)
  | named path name args =>
    named (if path = "" then "" else f path) name (args.attach.map fun c => mapPaths f c.1)
termination_by t => sizeOf t
decreasing_by
  · exact sizeOf_lt_of_mem_children (t := shape s) c.2
  · exact sizeOf_lt_of_mem_children (t := named path name args) c.2

variable {f : String → String} {P Q : TypeLiteral → Prop} {t : TypeLiteral}

@[simp] theorem mapPaths_shape (f : String → String) (s : Shape TypeLiteral) :
    (shape s).mapPaths f = shape (s.mapChildren (mapPaths f)) := by
  rw [mapPaths, Shape.attach_mapChildren]

@[simp] theorem mapPaths_named (f : String → String) (path name : String)
    (args : List TypeLiteral) :
    (named path name args).mapPaths f =
      named (if path = "" then "" else f path) name (args.map (mapPaths f)) := by
  rw [mapPaths, List.attach_map_val]

theorem children_mapPaths (f : String → String) (t : TypeLiteral) :
    (t.mapPaths f).children = t.children.map (mapPaths f) := by
  cases t with
  | shape s => rw [mapPaths_shape]; exact Shape.children_mapChildren _ s
  | named path name args => rw [mapPaths_named]; rfl

theorem Everywhere.mapPaths (h : Everywhere Q t) (hQ : ∀ u, Q u → P (u.mapPaths f)) :
    Everywhere P (t.mapPaths f) := by
  induction h with
  | @intro t here _ ih =>
    refine .intro (hQ t here) ?_
    intro c hc
    rw [children_mapPaths] at hc
    obtain ⟨d, hd, rfl⟩ := List.mem_map.1 hc
    exact ih d hd

theorem kind_mapPaths (f : String → String) (t : TypeLiteral) : (t.mapPaths f).kind = t.kind := by
  cases t with
  | shape s => cases s <;> simp [kind, Shape.kind, Shape.mapChildren]
  | named => simp [kind]

theorem direction?_mapPaths (f : String → String) (t : TypeLiteral) :
    (t.mapPaths f).direction? = t.direction? := by
  cases t with
  | shape s => cases s <;> simp [direction?, Shape.mapChildren]
  | named => simp [direction?]

theorem pointee_mapPaths (f : String → String) (t : TypeLiteral) :
    (t.mapPaths f).pointee = t.pointee.mapPaths f := by
  cases t with
  | shape s => cases s <;> simp [pointee, Shape.mapChildren]
  | named => simp [pointee]

theorem path_mapPaths_ne {forbidden : String} (hf : ∀ path, f path ≠ forbidden)
    (hne : forbidden ≠ "") (t : TypeLiteral) : (t.mapPaths f).path ≠ forbidden := by
  cases t with
  | shape s => rw [mapPaths_shape]; exact hne.symm
  | named path name args =>
    rw [mapPaths_named]
    change (if path = "" then "" else f path) ≠ forbidden
    split
    · exact hne.symm
    · exact hf _

/-- Embedded fields are called after their types, and not after the packages of these. -/
theorem embedded_mapPaths (h : t.Embeddable) :
    (t.mapPaths f).Embeddable ∧ (t.mapPaths f).embeddedName = t.embeddedName := by
  unfold Embeddable embeddedName
  rw [pointee_mapPaths]
  rcases h.pointee with ⟨path, name, args, he⟩ | ⟨b, he⟩
  · simp [he]
  · cases b <;> simp [he, Shape.mapChildren]

/-! ### How they are written -/

theorem writeParams_mapPaths {variadic : Bool} {ins : List TypeLiteral}
    (h : ∀ t ∈ ins, (t.mapPaths f).write id = t.write f) :
    writeParams id variadic (ins.map (mapPaths f)) = writeParams f variadic ins := by
  induction ins with
  | nil => simp [writeParams]
  | cons t ins ih =>
    have ht := h t (List.mem_cons_self ..)
    cases ins with
    | nil =>
      cases t with
      | named => simpa [writeParams] using ht
      | shape s => cases s <;> simp_all [writeParams, write, Shape.mapChildren]
    | cons u ins =>
      have hrest := ih fun c hc => h c (List.mem_cons_of_mem _ hc)
      simp only [List.map_cons] at hrest ⊢
      rw [writeParams_cons_cons, writeParams_cons_cons, ht, hrest]

theorem writeList_mapPaths {sep : List Char} {ts : List TypeLiteral}
    (h : ∀ t ∈ ts, (t.mapPaths f).write id = t.write f) :
    writeList id sep (ts.map (mapPaths f)) = writeList f sep ts := by
  rw [writeList_eq, writeList_eq, List.map_map]
  exact congrArg (List.intercalate sep) (List.map_congr_left h)

theorem writeSignature_mapPaths {s : Signature TypeLiteral}
    (h : ∀ t ∈ s.types, (t.mapPaths f).write id = t.write f) :
    writeSignature id (s.map (mapPaths f)) = writeSignature f s := by
  obtain ⟨ins, outs, variadic⟩ := s
  have hins : writeParams id variadic (ins.map (mapPaths f)) = writeParams f variadic ins :=
    writeParams_mapPaths fun t ht => h t (List.mem_append_left outs ht)
  have houts := fun t ht => h t (List.mem_append_right ins ht)
  rw [Signature.map, writeSignature, writeSignature, hins]
  rcases outs with _ | ⟨t, _ | ⟨u, rest⟩⟩
  · simp [writeResults]
  · simp [writeResults, houts t (List.mem_singleton_self t)]
  · have hlist : writeList id ", ".toList ((t :: u :: rest).map (mapPaths f)) =
        writeList f ", ".toList (t :: u :: rest) := writeList_mapPaths houts
    simp only [List.map_cons] at hlist ⊢
    rw [writeResults, writeResults, hlist] <;> simp

/-- Displaying a literal is writing the one with other package paths. -/
theorem write_mapPaths (hf : ∀ path, f path ≠ "") (t : TypeLiteral) :
    (t.mapPaths f).write id = t.write f := by
  induction t with
  | shape s ih =>
    rw [mapPaths_shape]
    cases s with
    | basic => simp [Shape.mapChildren, write]
    | array | slice | pointer => simp [Shape.mapChildren, write, ih _ (List.mem_singleton_self _)]
    | map k e =>
      have hk := ih k (by simp [Shape.children])
      have he := ih e (by simp [Shape.children])
      simp [Shape.mapChildren, write, hk, he]
    | chan d e =>
      have he := ih e (List.mem_singleton_self _)
      simp only [Shape.mapChildren, write, direction?_mapPaths, he]
    | func s => simp [Shape.mapChildren, write, writeSignature_mapPaths ih]
    | struct fs =>
      have hfields :
          (fs.map fun g => writeField id ⟨g.name, g.type.mapPaths f, g.tag, g.embedded⟩) =
            fs.map (writeField f) := by
        apply List.map_congr_left
        intro g hg
        rw [writeField_eq, writeField_eq, ih g.type (List.mem_map_of_mem hg)]
      rw [Shape.mapChildren, write_struct, write_struct, List.map_map]
      exact congrArg (fun texts => _ ++ [' '] ++ '\x7b' :: (body texts ++ _)) hfields
    | interface ms =>
      have hmethods : (ms.map fun m => writeMethod id ⟨m.name, m.signature.map (mapPaths f)⟩) =
          ms.map (writeMethod f) := by
        apply List.map_congr_left
        rintro ⟨name, s⟩ hm
        have hs := writeSignature_mapPaths fun c hc => ih c (List.mem_flatMap.2 ⟨_, hm, hc⟩)
        simp only [writeMethod, hs]
      rw [Shape.mapChildren, write_interface, write_interface, List.map_map]
      exact congrArg (fun texts => _ ++ [' '] ++ '\x7b' :: (body texts ++ _)) hmethods
  | named path name args ih =>
    have hpath : qualified id (if path = "" then "" else f path) name = qualified f path name := by
      by_cases hp : path = "" <;> simp [qualified, hp, hf path]
    rw [mapPaths_named]
    by_cases ha : args = []
    · rw [ha, List.map_nil, write_named_nil, write_named_nil, hpath]
    · have hmap : args.map (mapPaths f) ≠ [] := by simpa using ha
      rw [write_named_args _ _ hmap, write_named_args _ _ ha, hpath, writeList_mapPaths ih]

/-! ## Parsing -/

/-- What a node has to satisfy when its package path may be any text: a name without arguments must
not be displayed as the unsafe pointer. -/
def NodeDisplayable : TypeLiteral → Prop
  | named path name args =>
    path = "" ∧ name = "error" ∧ args = [] ∨
      path ≠ "" ∧ isIdentifier name.toList = true ∧
        (args = [] → (named path name []).render shortPackageName ≠ "unsafe.Pointer")
  | t => NodeWellFormed id t

/-- Well-formed but for the package paths, of which only the short names are shown. -/
def Displayable (t : TypeLiteral) : Prop := t.Everywhere NodeDisplayable

instance : DecidablePred NodeDisplayable
  | named _ _ _ => inferInstanceAs (Decidable (_ ∧ _ ∧ _ ∨ _ ∧ _ ∧ (_ → _)))
  | shape s => inferInstanceAs (Decidable (NodeWellFormed id (shape s)))

theorem signature_wellFormed_mapPaths {s : Signature TypeLiteral} (h : s.WellFormed) :
    (s.map (mapPaths f)).WellFormed := by
  intro hv
  obtain ⟨t, ht, hk⟩ := h hv
  refine ⟨t.mapPaths f, ?_, by rw [kind_mapPaths, hk]⟩
  rw [Signature.map, List.getLast?_map]
  exact Option.mem_map_of_mem _ ht

theorem nodeWellFormed_of_displayable (h : t.NodeDisplayable) :
    (t.mapPaths shortPackageName).NodeWellFormed id := by
  cases t with
  | named path name args =>
    rw [mapPaths_named]
    rcases h with ⟨rfl, rfl, rfl⟩ | ⟨hne, hname, hpointer⟩
    · exact .inl ⟨rfl, rfl, rfl⟩
    · rw [if_neg hne]
      refine .inr ⟨shortPackageName_ne_empty path,
        .of_isIdentifier (isIdentifier_shortPackageName path), hname, ?_⟩
      rintro ⟨hs, rfl, ha⟩
      refine hpointer (List.map_eq_nil_iff.1 ha) ?_
      rw [render_eq, write_named_nil, qualified, if_neg hne, hs]
      rfl
  | shape s =>
    rw [mapPaths_shape]
    cases s with
    | func s => exact signature_wellFormed_mapPaths h
    | struct fs =>
      intro _ hmem
      obtain ⟨g, hg, rfl⟩ := List.mem_map.1 hmem
      obtain ⟨hname, hembedded⟩ := h g hg
      refine ⟨hname, fun he => ?_⟩
      obtain ⟨hemb, heq⟩ := hembedded he
      obtain ⟨hemb', heq'⟩ := embedded_mapPaths (f := shortPackageName) hemb
      exact ⟨hemb', heq.trans heq'.symm⟩
    | interface ms =>
      intro _ hmem
      obtain ⟨m, hm, rfl⟩ := List.mem_map.1 hmem
      obtain ⟨hname, hs⟩ := h m hm
      exact ⟨hname, signature_wellFormed_mapPaths hs⟩
    | _ => trivial

/-- No identifier is a pair of points, so nothing is taken for an ellipsis. -/
theorem nodeClear_shortNames (t : TypeLiteral) : (t.mapPaths shortPackageName).NodeClear id := by
  have hpath (path : String) : shortPackageName path ≠ ".." := by
    intro he
    have hid := isIdentifier_shortPackageName path
    rw [he] at hid
    exact absurd hid (by decide)
  have hclear (s : Signature TypeLiteral) : (s.map (mapPaths shortPackageName)).Clear id := by
    intro u hu _
    have hmem : u ∈ s.ins.map (mapPaths shortPackageName) := by
      rw [Signature.plainIns] at hu
      split at hu
      · exact List.dropLast_subset _ hu
      · exact hu
    obtain ⟨c, -, rfl⟩ := List.mem_map.1 hmem
    exact path_mapPaths_ne hpath (by decide) c
  cases t with
  | named => rw [mapPaths_named]; trivial
  | shape s =>
    rw [mapPaths_shape]
    cases s with
    | func s => exact hclear s
    | interface ms =>
      intro m hm
      obtain ⟨m, -, rfl⟩ := List.mem_map.1 hm
      exact hclear m.signature
    | _ => trivial

end TypeLiteral

/-- What is displayed of a literal is parsed as the literal with the short names of its packages in
the places of their paths, and these names are identifiers. -/
theorem parse_displayed {t : TypeLiteral} (h : t.Displayable) :
    parse (t.render shortPackageName) = .ok (t.mapPaths shortPackageName) ∧
      ∀ path, isIdentifier (shortPackageName path).toList = true := by
  have hw : (t.mapPaths shortPackageName).WellFormed :=
    Everywhere.mapPaths h fun _ => nodeWellFormed_of_displayable
  have hc : (t.mapPaths shortPackageName).ClearParams :=
    Everywhere.mapPaths h fun u _ => nodeClear_shortNames u
  have htext : (t.mapPaths shortPackageName).canonical = t.render shortPackageName := by
    rw [canonical, render_eq, render_eq, write_mapPaths shortPackageName_ne_empty]
  exact ⟨htext ▸ parse_canonical hw hc, isIdentifier_shortPackageName⟩

/-- Paths that end in a version, a slash, a digit, a blank or two points, and a generic pointer from
a package that is displayed as the unsafe one. -/
def displaySample : TypeLiteral :=
  shape (.func ⟨
    [named "lib/pair/v2" "Pair" [named "9é/7 [x]//" "Key" [], error], named ".." "T" []],
    [shape (.struct [⟨"Pointer", named "x/unsafe" "Pointer" [any], "json:\"p\"", true⟩]),
      shape (.chan .both (shape (.chan .recv (named "v2" "Event" []))))], false⟩)

theorem parse_displaySample : displaySample.Displayable ∧
    parse (displaySample.render shortPackageName) =
      .ok (displaySample.mapPaths shortPackageName) := by
  have hd : displaySample.Displayable := by
    unfold Displayable
    decide +kernel
  exact ⟨hd, (parse_displayed hd).1⟩

end TypeIdentity
