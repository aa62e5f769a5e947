import TypeIdentity.Proofs.Literal.Origins
import TypeIdentity.Serial.Forms

/-! # Parsed literals and their own texts

A literal that was parsed is parsed from its canonical text again if that text shows what was
parsed: the printer leaves out the name of an embedded field and the parentheses around an element
or a result, and it writes an embedded type with spaces of its own.  The induction is on the
literal; the text of a name is the one that was parsed only up to its brackets.
-/
namespace TypeIdentity
open Text Scan

/-- A package path that keeps its separators in brackets, and that nothing takes for parentheses. -/
structure NestedPath (path : String) : Prop where
  nested : Nested [',', ';'] path.toList
  noParen : path.toList.head? ≠ some '('

theorem NestedPath.of_plain {path : String}
    (h : ∀ c ∈ path.toList, IsPlain c ∧ c ∉ [',', ';']) : NestedPath path where
  nested := Nested.of_plain h
  noParen := by
    intro hparen
    obtain ⟨rest, hrest⟩ := List.head?_eq_some_iff.1 hparen
    exact (h '(' (by simp [hrest])).1 (by decide)

namespace TypeLiteral

/-- An embedded field is called after its type, and this is printed as one word. -/
def EmbeddedRecoverable (f : Field TypeLiteral) : Prop :=
  f.embedded = true → f.name = f.type.embeddedName ∧
    splitParts .space f.type.canonical.toList = .ok [f.type.canonical.toList]

def NodeRecoverable : TypeLiteral → Prop
  | named path _ _ => NestedPath path
  | shape (.struct fs) => ∀ f ∈ fs, EmbeddedRecoverable f
  | shape _ => True

/-- What a parsed literal has to satisfy for its canonical text to be parsed as it was. -/
def Recoverable (t : TypeLiteral) : Prop := t.Everywhere NodeRecoverable

theorem toList_canonical (t : TypeLiteral) : t.canonical.toList = t.write id := by
  rw [canonical, render_eq, String.toList_ofList]

end TypeLiteral

namespace Literal
open Reading TypeLiteral

/-! ## Names -/

section Names
variable {text : List Char} {path name : String} {args : List TypeLiteral}

/-- The text of a name is cut where the brackets of its arguments begin. -/
theorem NameParsed.cut (h : NameParsed text path name args) :
    splitLastPoint (qualified id path name) = some (path.toList, name.toList) ∧
      (args = [] ∧ text = qualified id path name ∨ args ≠ [] ∧
        ∃ inner, firstSpan .square text = .ok (some ⟨qualified id path name, inner, []⟩)) := by
  obtain ⟨base, hpoint, hb⟩ := h.base
  have hbase : qualified id path name = base := by
    rw [eq_append_of_splitLastPoint hpoint, qualified, if_neg h.path_ne]
    simp
  rw [hbase]
  exact ⟨hpoint, hb.imp_left fun hnone => ⟨hnone.1, hnone.2.1.symm⟩⟩

theorem NameParsed.text_eq (h : NameParsed text path name args) :
    ∃ tail, text = qualified id path name ++ tail := by
  rcases h.cut.2 with ⟨-, rfl⟩ | ⟨-, inner, hspan⟩
  · exact ⟨[], (List.append_nil _).symm⟩
  · exact ⟨_, firstSpan_eq_append hspan⟩

theorem NameParsed.qualified_eq (h : NameParsed text path name args) :
    qualified id path name = path.toList ++ '.' :: name.toList := by
  rw [qualified, if_neg h.path_ne]
  simp

theorem NameParsed.standalone (h : NameParsed text path name args) (ht : Trimmed text)
    (hp : NestedPath path) : Standalone (qualified id path name) := by
  have hord := isOrdinary_of_isIdentifier h.name_ident
  have hpoint : Nested [',', ';'] ('.' :: name.toList) :=
    .char (by simp [IsPlain]) (by simp) (Nested.of_ordinary hord (by simp))
  obtain ⟨c, rest, hc⟩ : ∃ c rest, path.toList = c :: rest :=
    List.exists_cons_of_ne_nil (by simpa using h.path_ne)
  obtain ⟨init, d, hd⟩ : ∃ init d, name.toList = init ++ [d] :=
    (List.eq_nil_or_concat' _).resolve_left (ne_nil_of_isIdentifier h.name_ident)
  have hvisible : isBlank c = false := by
    obtain ⟨tail, htext⟩ := h.text_eq
    obtain ⟨c', rest', he, hb⟩ := ht.first
    rw [htext, h.qualified_eq, hc] at he
    rwa [(List.cons.inj he).1]
  have hlast : IsOrdinary d := hord d (by simp [hd])
  rw [h.qualified_eq]
  refine ⟨⟨hp.nested.append hpoint, ?_⟩, ⟨c, rest ++ '.' :: name.toList, ?_, hvisible, ?_⟩⟩
  · refine ⟨path.toList ++ '.' :: init, d, by simp [hd], hlast.1, ?_⟩
    rintro rfl
    exact hlast.2 (by decide)
  · rw [hc, List.cons_append]
  · rintro rfl
    exact hp.noParen (by rw [hc]; rfl)

/-- An ellipsis stands before the brackets, and so in both texts or in none. -/
theorem NameParsed.no_ellipsis (h : NameParsed text path name args)
    (hn : after? "..." text = none) : after? "..." (write id (named path name args)) = none := by
  cases ha : after? "..." (write id (named path name args)) with
  | none => rfl
  | some rest =>
    obtain ⟨tail, htext⟩ := h.text_eq
    obtain ⟨tail', hwrite, -⟩ := write_named_eq id path name args
    have hlong : "...".toList.length ≤ (qualified id path name).length := by
      have hpath : path.toList.length ≠ 0 := by simpa using h.path_ne
      have hname : name.toList.length ≠ 0 := by simpa using ne_nil_of_isIdentifier h.name_ident
      rw [h.qualified_eq]
      simp only [List.length_append, List.length_cons]
      change 3 ≤ _
      omega
    have hdots : "...".toList <+: qualified id path name := by
      refine List.prefix_of_prefix_length_le ?_ ⟨tail', rfl⟩ hlong
      exact ⟨rest, by rw [← hwrite, ← eq_append_of_after? ha]⟩
    obtain ⟨more, hmore⟩ := hdots
    rw [htext, ← hmore, List.append_assoc, after?_append] at hn
    cases hn

theorem run_decodePath {n : Nat} {α : Type} {token : String} {k : String → Reading n α}
    {parseText : (text : List Char) → text.length < n → Except Error TypeLiteral} :
    (decodePath token .done >>= k).run parseText .ok .ok = (k token).run parseText .ok .ok := rfl

/-- Only what stands in the brackets is read anew. -/
theorem ParsedFrom.write_named (h : ParsedFrom text (named path name args)) (ht : Trimmed text)
    (hname : NameParsed text path name args) (hp : NestedPath path)
    (hargs : ∀ a ∈ args, Component id ParsedFrom a a) :
    ParsedFrom (write id (named path name args)) (named path name args) := by
  obtain ⟨hpoint, ⟨rfl, rfl⟩ | ⟨hne, inner, hspan⟩⟩ := hname.cut
  · rwa [write_named_nil]
  have halone : ∀ a ∈ args, Standalone (a.write id) := fun a ha => (hargs a ha).standalone
  have hwritten := (standalone_named (hname.standalone ht hp) halone).trimmed
  have hsource := hname.head
  obtain rfl := firstSpan_eq_append hspan
  have hhead := Head.of_name_bracket hsource (writeList id [','] args ++ [']'])
  have hspan' := firstSpan_before hspan (nested_args halone) []
  have hpath : path.toList ≠ [] := by simpa using hname.path_ne
  have hsplit := splitParts_writeList (padding_nil .comma) halone
  obtain ⟨hlt, hread⟩ := readName_args hspan' hpoint hpath hname.name_ident hsplit
  rw [write_named_args path name hne] at hwritten ⊢
  refine parsedFrom_of_run hwritten ?_
  rw [level, hhead]
  simp only []
  rw [hread, String.ofList_toList, String.ofList_toList, run_decodePath]
  have hsubs : Yields id (fun _ => True) ParsedFrom
      (subs ((args.map (write id)).attachWith _ hlt)) args := by
    have hall : Yields id (fun _ => True) ParsedFrom
        (subs ((args.map (write id)).attachWith _ hlt)) (args.map fun c => c) :=
      Yields.mapM (forall₂_parts hlt fun c hc hl => Yields.sub (hargs c hc).reads hl)
    rwa [List.map_id'] at hall
  refine run_of_yields (hsubs.bind ?_)
  rw [if_neg hne]
  exact Yields.done _

end Names

/-! ## Parameters and declared fields -/

theorem no_ellipsis_error : after? "..." (write id error) = none :=
  after?_ellipsis_named (.inl ⟨rfl, rfl, rfl⟩) (by decide)

/-- A type that was not read after an ellipsis is not printed with one. -/
theorem ParsedBare.no_ellipsis {t : TypeLiteral} (h : ParsedBare t) :
    after? "..." (t.write id) = none := by
  obtain ⟨text, ht, htrim, hn⟩ := h
  cases t with
  | shape s => exact after?_ellipsis_shape id s
  | named path name args =>
    have hnode := ht.node.2
    rw [htrim] at hnode
    rcases hnode with ⟨rfl, rfl, rfl⟩ | hname
    · exact no_ellipsis_error
    · exact hname.no_ellipsis hn

/-- The words of a declared type are printed as many as were read. -/
theorem FieldParsed.words {f : Field TypeLiteral} (h : FieldParsed f) (hd : f.embedded = false)
    (hf : NodeRecoverable f.type) (hc : Component id ParsedFrom f.type f.type) (type : List Char) :
    splitParts .space (f.type.write id) ≠ .ok [['='], type] := by
  have hs := hc.standalone
  obtain ⟨text, words, ht, htrim, hwords, hequals⟩ := h.declared hd
  have htrimmed : Trimmed text := htrim ▸ trimmed_trim ht.visible
  have hnode := ht.node.2
  rw [htrim] at hnode
  cases hlit : f.type with
  | shape s =>
    rw [hlit] at hs
    exact splitParts_ne_of_head hs.trimmed (head?_shape_ne id s) type
  | named path name args =>
    rw [hlit] at hs hnode hf hc
    rcases hnode with ⟨rfl, rfl, rfl⟩ | hname
    · have hfirst : (write id error).head? ≠ some '=' := by
        rw [error, write_named_nil]
        decide
      exact splitParts_ne_of_head hs.trimmed hfirst type
    obtain ⟨-, ⟨rfl, rfl⟩ | ⟨hne, inner, hspan⟩⟩ := hname.cut
    · rw [write_named_nil, hwords]
      exact fun he => hequals type (Except.ok.inj he)
    · have hbase := (hname.standalone htrimmed hf).nested
      rw [write_named_args path name hne] at hs ⊢
      intro he
      obtain ⟨before, last, last', rfl, hlast⟩ :=
        words_of_bracket hbase (nested_args hc.written.2) htrimmed hspan hwords hs.trimmed he
      obtain ⟨rfl, -⟩ : before = [['=']] ∧ last' = type :=
        (List.append_singleton_inj.1 hlast.symm)
      exact hequals last rfl

/-! ## Shapes -/

theorem MembersParsed.wellFormed {s : Shape TypeLiteral} (h : MembersParsed s) :
    MembersWellFormed s := by
  cases s with
  | func s => exact SignatureParsed.wellFormed h
  | struct fs => exact fun f hf => (h f hf).name
  | interface ms => exact fun m hm => ⟨(h m hm).1, (h m hm).2.wellFormed⟩
  | _ => trivial

theorem SignatureParsed.components {s : Signature (TypeLiteral × TypeLiteral)}
    (h : SignatureParsed (s.map Prod.fst)) (hc : ∀ c ∈ s.types, Component id ParsedFrom c.1 c.2) :
    SignatureComponents id ParsedFrom s where
  wellFormed := h.wellFormed
  plain c hm := by
    refine ParsedBare.no_ellipsis (h.plain c.1 ?_)
    rw [plainIns_map]
    exact List.mem_map_of_mem hm
  types := hc

theorem FieldParsed.components {f : Field (TypeLiteral × TypeLiteral)}
    (h : FieldParsed (retype Prod.fst f)) (he : EmbeddedRecoverable (retype Prod.fst f))
    (hr : NodeRecoverable f.type.1) (hsame : f.type.1 = f.type.2)
    (hc : Component id ParsedFrom f.type.1 f.type.2) : FieldComponents id f := by
  obtain ⟨name, ⟨t, u⟩, tag, embedded⟩ := f
  obtain rfl : t = u := hsame
  refine fieldComponents_of_words h.name hc.standalone (fun hembedded => ?_) fun hdeclared => ?_
  · obtain ⟨hname, hword⟩ := he hembedded
    rw [toList_canonical] at hword
    exact ⟨hname, hword⟩
  · exact h.words hdeclared hr hc

/-- The text of a shape is read as the shape. -/
theorem yields_parsed {s : Shape TypeLiteral} (hr : (shape s).Recoverable)
    (hs : MembersParsed s) (hc : ∀ c ∈ s.children, Component id ParsedFrom c c) :
    Yields id (fun _ => True) ParsedFrom (level (write id (shape s))) (shape s) := by
  obtain ⟨z, rfl, hsnd, hz⟩ := Shape.exists_zip (rfl : s.mapChildren id = s.mapChildren id)
  have hmem : ∀ c ∈ z.children, c.1 ∈ (z.mapChildren Prod.fst).children := by
    intro c hm
    rw [Shape.children_mapChildren]
    exact List.mem_map_of_mem hm
  have hpairs : ∀ c ∈ z.children, Component id ParsedFrom c.1 c.2 := by
    intro c hm
    have he : c.1 = c.2 := hz c hm
    exact he ▸ hc c.1 (hmem c hm)
  have hmembers : MemberComponents id ParsedFrom z := by
    cases z with
    | func s => exact SignatureParsed.components hs hpairs
    | struct fs =>
      intro f hf
      have hin : f.type ∈ Shape.children (.struct fs) := List.mem_map_of_mem hf
      exact FieldParsed.components (hs _ (List.mem_map_of_mem hf))
        (hr.here _ (List.mem_map_of_mem hf)) (hr.inside _ (hmem _ hin)).here (hz _ hin)
        (hpairs _ hin)
    | interface ms =>
      intro m hm
      obtain ⟨hname, hsig⟩ := hs _ (List.mem_map_of_mem hm)
      refine ⟨hname, SignatureParsed.components hsig fun c hc => ?_⟩
      exact hpairs c (List.mem_flatMap.2 ⟨m, hm, hc⟩)
    | _ => trivial
  have hy : Yields id (fun _ => True) ParsedFrom (level (write id (shape (z.mapChildren Prod.fst))))
      (shape (z.mapChildren Prod.snd)) := yields_members hmembers hpairs
  rwa [← hsnd] at hy

theorem parsedFrom_of_printed {allowed : String → Prop} {text : List Char} {t : TypeLiteral}
    (h : Printed id allowed text t) : ParsedFrom text t := by
  obtain ⟨hlegible, rfl⟩ := h
  have htext := trim_of_trimmed (written hlegible.wellFormed).1.trimmed
  exact returns_parseWith faithful_plain hlegible htext

end Literal

namespace TypeLiteral
open Literal

theorem component_error : Component id ParsedFrom error error := by
  have hnone {P : TypeLiteral → Prop} (h : P error) : error.Everywhere P :=
    .intro h (List.forall_mem_nil _)
  have hlegible : error.Legible id fun _ => True :=
    ⟨hnone (.inl ⟨rfl, rfl, rfl⟩), hnone trivial, hnone fun _ => trivial⟩
  exact (reads_self (fun _ _ => parsedFrom_of_printed) hlegible).component

/-- Parsed literals are components that are read as themselves, by induction on the literal. -/
theorem Recoverable.component {t : TypeLiteral} (hr : t.Recoverable) (h : Parsed t) :
    Component id ParsedFrom t t := by
  induction t with
  | named path name args ih =>
    obtain ⟨text, ht⟩ := h
    obtain ⟨hchildren, ⟨rfl, rfl, rfl⟩ | hname⟩ := ht.node
    · exact component_error
    have htrimmed := trimmed_trim ht.visible
    have hargs : ∀ a ∈ args, Component id ParsedFrom a a := by
      intro a ha
      exact ih a ha (hr.inside a ha) (hchildren a ha)
    have halone : ∀ a ∈ args, Standalone (a.write id) := fun a ha => (hargs a ha).standalone
    refine ⟨⟨standalone_named (hname.standalone htrimmed hr.here) halone, halone⟩, ?_, ?_⟩
    · exact ht.trim.write_named htrimmed hname hr.here hargs
    · rintro e ⟨⟩
  | shape s ih =>
    obtain ⟨text, ht⟩ := h
    obtain ⟨hchildren, hmembers⟩ : (∀ c ∈ s.children, Parsed c) ∧ MembersParsed s := ht.node
    have hparts : ∀ c ∈ s.children, Component id ParsedFrom c c := by
      intro c hc
      exact ih c hc (hr.inside c hc) (hchildren c hc)
    have hwritten : Standalone (write id (shape s)) :=
      standalone_shape hmembers.wellFormed fun c hc => (hparts c hc).written
    refine ⟨⟨hwritten, fun c hc => (hparts c hc).standalone⟩, ?_, ?_⟩
    · exact parsedFrom_of_yields hwritten.trimmed (yields_parsed hr hmembers hparts)
    · rintro e he
      obtain rfl := shape.inj he
      exact ⟨e, rfl, (hparts e (List.mem_singleton_self e)).reads⟩

theorem Recoverable.parse {t : TypeLiteral} (hr : t.Recoverable) {id : String}
    (h : TypeIdentity.parse id = .ok t) : TypeIdentity.parse t.canonical = .ok t := by
  rw [TypeIdentity.parse, toList_canonical]
  exact (hr.component ⟨id.toList, h⟩).reads

end TypeLiteral

/-! ## Canonical texts -/

/-- Parsed literals that are recoverable are parsed from their canonical texts, read from documents
that hold these, and told apart by them. -/
theorem parse_canonical_of_parsed {id other : String} {t u : TypeLiteral} (ht : parse id = .ok t)
    (hu : parse other = .ok u) (hrt : t.Recoverable) (hru : u.Recoverable) :
    parse t.canonical = .ok t ∧ TypeLiteral.ofData t.toData = .ok t ∧
      (t = u ↔ t.canonical = u.canonical) := by
  have hparse := hrt.parse ht
  refine ⟨hparse, ?_, congrArg _, fun he => ?_⟩
  · rw [TypeLiteral.toData, TypeLiteral.ofData, hparse]
    rfl
  · have hother := hru.parse hu
    rw [← he, hparse] at hother
    exact Except.ok.inj hother

/-- A field named by its type, one named by a qualified name, an alias, and parentheses around an
element whose path has a space. -/
def looseSample : TypeLiteral :=
  .shape (.struct [⟨"Box", .named "x/y" "Box" [.shape (.basic .uint8)], "", true⟩,
    ⟨"f", .shape (.chan .both (.named "a b" "T" [])), "", false⟩])

theorem recoverable_looseSample : looseSample.Recoverable := by
  have hbox : NestedPath "x/y" := .of_plain (by simp [IsPlain])
  have hspace : NestedPath "a b" := .of_plain (by simp [IsPlain])
  have hfields : TypeLiteral.NodeRecoverable looseSample := by
    intro f hf
    rcases List.mem_pair.1 hf with rfl | rfl
    · exact fun _ => ⟨by decide +kernel, by decide +kernel⟩
    · exact fun he => absurd he Bool.false_ne_true
  have hbyte : TypeLiteral.Recoverable (.shape (.basic .uint8)) :=
    .intro trivial (List.forall_mem_nil _)
  have hnamed : TypeLiteral.Recoverable (.named "a b" "T" []) :=
    .intro hspace (List.forall_mem_nil _)
  refine .intro hfields fun c hc => ?_
  rcases List.mem_pair.1 hc with rfl | rfl
  · exact .intro hbox fun a ha => List.mem_singleton.1 ha ▸ hbyte
  · exact .intro trivial fun e he => List.mem_singleton.1 he ▸ hnamed

theorem parse_canonical_looseSample :
    parse "struct \x7b Box = x/y.Box[ byte ]; p/q.f chan (a b.T) \x7d" = .ok looseSample ∧
      parse "struct\x7bx/y.Box[uint8];f chan a b.T\x7d" = .ok looseSample ∧
      looseSample.Recoverable ∧ parse looseSample.canonical = .ok looseSample ∧
      TypeLiteral.ofData looseSample.toData = .ok looseSample := by
  have hparse : parse "struct \x7b Box = x/y.Box[ byte ]; p/q.f chan (a b.T) \x7d" =
      .ok looseSample := by
    decide +kernel
  have hother : parse "struct\x7bx/y.Box[uint8];f chan a b.T\x7d" = .ok looseSample := by
    decide +kernel
  have hr := recoverable_looseSample
  obtain ⟨hcanonical, hdata, -⟩ := parse_canonical_of_parsed hparse hother hr hr
  exact ⟨hparse, hother, hr, hcanonical, hdata⟩

/-- The name that was given to an embedded field is not printed. -/
theorem parse_canonical_renamedField :
    parse "struct \x7b Foo = x/y.Box[int] \x7d" = .ok (ParseTables.boxField "Foo") ∧
      parse "struct \x7b x/y.Box[int] \x7d" = .ok (ParseTables.boxField "Box") ∧
      parse (ParseTables.boxField "Foo").canonical = .ok (ParseTables.boxField "Box") ∧
      TypeLiteral.ofData (ParseTables.boxField "Foo").toData = .ok (ParseTables.boxField "Box") ∧
      (ParseTables.boxField "Foo").canonical = (ParseTables.boxField "Box").canonical ∧
      ParseTables.boxField "Foo" ≠ ParseTables.boxField "Box" := by
  have hcanonical : parse (ParseTables.boxField "Foo").canonical =
      .ok (ParseTables.boxField "Box") := by
    decide +kernel
  refine ⟨by decide +kernel, by decide +kernel, hcanonical, ?_, by decide +kernel, ?_⟩
  · rw [TypeLiteral.toData, TypeLiteral.ofData, hcanonical]
    rfl
  · simp [ParseTables.boxField]

def mapField : TypeLiteral :=
  .shape (.struct [⟨"map", .shape (.map (.shape (.basic .string)) .any), "", true⟩])

def chanParam (path : String) : TypeLiteral :=
  .shape (.func ⟨[.shape (.chan .both (.named path "T" []))], [], false⟩)

def nestedChan (path : String) : TypeLiteral :=
  .shape (.chan .both (.shape (.chan .recv (.named path "T" []))))

/-- Spaces in an embedded type and marks in a path are not read back where they are printed. -/
theorem parse_canonical_not_recoverable :
    (parse "struct \x7b map[string]any \x7d" = .ok mapField ∧
      parse mapField.canonical ≠ .ok mapField) ∧
    (parse "func(chan ((x).T))" = .ok (chanParam "(x)") ∧
      parse (chanParam "(x)").canonical ≠ .ok (chanParam "(x)")) ∧
    (parse "func(chan (x,y.T))" = .ok (chanParam "x,y") ∧
      parse (chanParam "x,y").canonical ≠ .ok (chanParam "x,y")) ∧
    parse "chan <-chan x).T" = .ok (nestedChan "x)") ∧
      parse (nestedChan "x)").canonical ≠ .ok (nestedChan "x)") := by
  decide +kernel

end TypeIdentity
