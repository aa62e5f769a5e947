import TypeIdentity.Proofs.Literal.Spellings

/-! # Reading other spellings back

What the printer has to say about the canonical text of a literal is true of all its spellings, and
so they are read as the literal, by induction on how they are put together.
-/
namespace TypeIdentity
open Text Scan Literal TypeLiteral Reading

namespace TypeLiteral

theorem nameWellFormed_congr {spell : String → String} {path name : String}
    {as bs : List TypeLiteral} (h : NameWellFormed spell path name as) (he : as = [] ↔ bs = []) :
    NameWellFormed spell path name bs := by
  unfold NameWellFormed at h ⊢
  rwa [← he]

/-- The last parameter of a variadic signature is a slice. -/
theorem exists_slice_of_variadic {first outs : List TypeLiteral} {t : TypeLiteral}
    (h : Signature.WellFormed ⟨first ++ [t], outs, true⟩) : ∃ e, t = shape (.slice e) := by
  rcases h.params with hv | ⟨init, e, -, he⟩
  · cases hv
  · exact ⟨e, by simpa using (List.append_inj' he rfl).2⟩

/-- What is known of a spelling of a literal, wherever it stands. -/
structure Stands (text : List Char) (t : TypeLiteral) : Prop where
  alone : Standalone text
  word : t.Embeddable → Nested [' '] text
  entry : Nested [' '] text ∨ text.head? ≠ some '='
  dots : (t.kind = .named → t.path ≠ "..") → after? "..." text = none
  element : ∀ e, t = shape (.slice e) → ∃ elem, text = "[]".toList ++ elem ∧ Standalone elem

theorem signatureAlone {s : Signature (List Char × TypeLiteral)}
    (hw : (s.map Prod.snd).WellFormed) (hs : ∀ c ∈ s.types, Stands c.1 c.2) :
    SignatureAlone (s.map Prod.fst) where
  types := by
    intro text ht
    obtain ⟨c, hc, rfl⟩ := List.mem_map.1
      (show text ∈ s.types.map Prod.fst by simpa [Signature.types, Signature.map] using ht)
    exact (hs c hc).alone
  elem := by
    intro init elem hv hins
    obtain ⟨ins, outs, variadic⟩ := s
    obtain rfl : variadic = true := hv
    obtain ⟨first, last, rfl, -, hlast⟩ := List.map_eq_append_iff.1 hins
    obtain ⟨z, rfl, hz⟩ := List.map_eq_singleton_iff.1 hlast
    obtain ⟨e, hslice⟩ : ∃ e, z.2 = shape (.slice e) :=
      exists_slice_of_variadic (by simpa [Signature.map] using hw)
    obtain ⟨elem', htext, halone⟩ := (hs z (by simp [Signature.types])).element e hslice
    obtain rfl : elem = elem' := List.append_cancel_left (hz.symm.trans htext)
    exact halone

theorem levelAlone {z : Shape (List Char × TypeLiteral)}
    (hw : NodeWellFormed id (shape (z.mapChildren Prod.snd)))
    (hs : ∀ c ∈ z.children, Stands c.1 c.2) : LevelAlone (z.mapChildren Prod.fst) := by
  have hchildren : ∀ text ∈ (z.mapChildren Prod.fst).children, Standalone text := by
    intro text ht
    obtain ⟨c, hc, rfl⟩ := Shape.exists_of_mem_children ht
    exact (hs c hc).alone
  cases z with
  | func s => exact signatureAlone hw hs
  | struct fs =>
    intro g hg
    obtain ⟨f, hf, rfl⟩ := List.mem_map.1 hg
    exact ⟨(hw _ (List.mem_map_of_mem hf)).1, (hs f.type (List.mem_map_of_mem hf)).alone⟩
  | interface ms =>
    intro k hk
    obtain ⟨m, hm, rfl⟩ := List.mem_map.1 hk
    have hmethod := hw _ (List.mem_map_of_mem hm)
    refine ⟨hmethod.1, signatureAlone hmethod.2 fun c hc => ?_⟩
    exact hs c (List.mem_flatMap.2 ⟨m, hm, hc⟩)
  | _ => exact hchildren

theorem LevelText.word {z : Shape (List Char × TypeLiteral)} {text : List Char}
    (h : LevelText (z.mapChildren Prod.fst) text)
    (he : (shape (z.mapChildren Prod.snd)).Embeddable)
    (hs : ∀ c ∈ z.children, Stands c.1 c.2) : Nested [' '] text := by
  have hord (word : List Char) (hw : word.all (fun c => decide (IsOrdinary c)) = true) :
      Nested [' '] word :=
    Nested.of_ordinary (by simpa using hw) (by simp)
  cases z with
  | basic b =>
    cases h with
    | basic => exact Nested.of_ordinary (isOrdinary_basic b) (by simp)
    | byte | rune => exact hord _ (by decide)
  | pointer c =>
    cases h
    have hc : c.2.Embeddable := by
      rcases he.pointee with ⟨path, name, args, hp⟩ | ⟨b, hp⟩
      · obtain hp : c.2 = named path name args := hp
        rw [hp]
        trivial
      · obtain hp : c.2 = shape (.basic b) := hp
        rw [hp]
        trivial
    exact .char (by simp [IsPlain]) (by simp) ((hs c (List.mem_singleton_self c)).word hc)
  | _ => exact absurd he id

theorem Spelled.stands {text : List Char} {t : TypeLiteral} (h : Spelled text t)
    (hw : t.WellFormed) : Stands text t := by
  induction h with
  | shape z h _ ih =>
    have hs : ∀ c ∈ z.children, Stands c.1 c.2 :=
      fun c hc => ih c hc (hw.inside c.2 (Shape.mem_children_map Prod.snd hc))
    refine ⟨h.standalone (levelAlone hw.here hs), fun he => h.word he hs,
      .inr (head?_ne_of_first h.first), fun _ => after?_ellipsis_first h.first, ?_⟩
    intro e he
    cases z with
    | slice c =>
      cases h
      exact ⟨c.1, rfl, (hs c (List.mem_singleton_self c)).alone⟩
    | _ => cases he
  | named path name zs _ ih =>
    have halone : ∀ a ∈ (zs.map Prod.fst).map asText, Standalone (a.write id) := by
      intro a ha
      obtain ⟨text, ht, rfl⟩ := List.mem_map.1 ha
      obtain ⟨c, hc, rfl⟩ := List.mem_map.1 ht
      rw [write_asText]
      exact (ih c hc (hw.inside c.2 (List.mem_map_of_mem hc))).alone
    have hname : NameWellFormed id path name ((zs.map Prod.fst).map asText) :=
      nameWellFormed_congr hw.here (by simp)
    have hword := word_named hname halone
    rw [← write_named_asText]
    exact ⟨standalone_named (standalone_qualified hname) halone, fun _ => hword, .inl hword,
      fun hc => after?_ellipsis_named hname (hc rfl), nofun⟩

/-- A spelling of a slice is a spelling of its elements after empty brackets. -/
theorem Spelled.element {text : List Char} {e : TypeLiteral}
    (h : Spelled text (TypeLiteral.shape (.slice e))) :
    ∃ elem, text = "[]".toList ++ elem ∧ Spelled elem e := by
  generalize ht : TypeLiteral.shape (.slice e) = t at h
  cases h with
  | shape z h hc =>
    cases z with
    | slice c =>
      cases ht
      cases h
      exact ⟨c.1, rfl, hc c (List.mem_singleton_self c)⟩
    | _ => cases ht
  | named => cases ht

end TypeLiteral

namespace Literal
variable {n : Nat}

/-- A spelling of a literal that can be read back. -/
structure Respelled (text : List Char) (t : TypeLiteral) : Prop where
  spelled : Spelled text t
  wellFormed : t.WellFormed
  clear : t.ClearParams

namespace Respelled
variable {text : List Char} {t : TypeLiteral}

theorem stands (h : Respelled text t) : Stands text t := h.spelled.stands h.wellFormed

theorem component (h : Respelled text t) : Component id Respelled (asText text) t where
  written := written_asText h.stands.alone
  reads := by rwa [write_asText]
  element _ he := nomatch he

end Respelled

/-- Pairs whose texts are put in as components. -/
def asTexts (zs : List (List Char × TypeLiteral)) : List (TypeLiteral × TypeLiteral) :=
  zs.map fun c => (asText c.1, c.2)

theorem texts_asTexts (zs : List (List Char × TypeLiteral)) :
    texts id (asTexts zs) = zs.map Prod.fst := by
  simp [texts, asTexts]

theorem snd_asTexts (zs : List (List Char × TypeLiteral)) :
    (asTexts zs).map Prod.snd = zs.map Prod.snd := by
  simp [asTexts]

theorem forall_asTexts {zs : List (List Char × TypeLiteral)} {P : TypeLiteral × TypeLiteral → Prop}
    (h : ∀ c ∈ zs, P (asText c.1, c.2)) : ∀ d ∈ asTexts zs, P d := by
  intro d hd
  obtain ⟨c, hc, rfl⟩ := List.mem_map.1 hd
  exact h c hc

/-! ## Signatures -/

theorem yields_paramTexts {s : Signature (List Char × TypeLiteral)} {params : List (List Char)}
    {list : List Char} (hp : ParamTexts s.variadic (s.ins.map Prod.fst) params)
    (hl : Joined .comma params list) (hw : (s.map Prod.snd).WellFormed)
    (hc : (s.map Prod.snd).Clear id) (hs : ∀ c ∈ s.types, Respelled c.1 c.2) (source : List Char)
    (hlt : list.length < n) :
    Yields id (fun _ => True) Respelled (parts .comma list hlt >>= readParams source)
      (s.ins.map Prod.snd, s.variadic) := by
  have halone : SignatureAlone (s.map Prod.fst) := signatureAlone hw fun c hc => (hs c hc).stands
  have hsplit : splitParts .comma list = .ok params := by
    have hall := splitParts_joined hl (padding_nil .comma) (padding_nil .comma) (halone.params hp)
    rwa [List.nil_append, List.append_nil] at hall
  have hplain : ∀ c ∈ s.plainIns, after? "..." c.1 = none := by
    intro c hm
    have hin : c ∈ s.types := List.mem_append_left _ (mem_ins_of_mem_plainIns hm)
    refine (hs c hin).stands.dots (hc c.2 ?_)
    rw [plainIns_map]
    exact List.mem_map_of_mem hm
  have hread (c : List Char × TypeLiteral) (hin : c ∈ s.ins) (hd : after? "..." c.1 = none) :
      Respelled ((asText c.1).write id) c.2 ∧ after? "..." ((asText c.1).write id) = none := by
    rw [write_asText]
    exact ⟨hs c (List.mem_append_left _ hin), hd⟩
  obtain ⟨ins, outs, variadic⟩ := s
  simp only at hp ⊢
  generalize hfst : ins.map Prod.fst = texts at hp
  cases hp with
  | plain =>
    subst hfst
    rw [← snd_asTexts]
    refine yields_plainParams (by rw [texts_asTexts, hsplit]) ?_ source hlt
    exact forall_asTexts fun c hin => hread c hin (hplain c hin)
  | variadic init elem =>
    obtain ⟨first, last, rfl, rfl, hlast⟩ := List.map_eq_append_iff.1 hfst
    obtain ⟨z, rfl, hz⟩ := List.map_eq_singleton_iff.1 hlast
    obtain ⟨e, hslice⟩ : ∃ e, z.2 = shape (.slice e) :=
      exists_slice_of_variadic (by simpa [Signature.map] using hw)
    have hzr : Respelled z.1 z.2 := hs z (by simp [Signature.types])
    rw [hz, hslice] at hzr
    obtain ⟨elem', htext, hspelled⟩ := hzr.spelled.element
    obtain rfl : elem = elem' := List.append_cancel_left htext
    have helem : Respelled ((asText elem).write id) e := by
      rw [write_asText]
      exact ⟨hspelled, hzr.wellFormed.inside e (List.mem_singleton_self e),
        hzr.clear.inside e (List.mem_singleton_self e)⟩
    have hwhole : Respelled (write id (shape (.slice (asText elem)))) (shape (.slice e)) := by
      simpa [write] using hzr
    rw [List.map_append, List.map_singleton, hslice, ← snd_asTexts]
    refine yields_params source hlt (by rw [texts_asTexts, hsplit]) ?_ fun hl' => ?_
    · refine forall_asTexts fun c hin => hread c (List.mem_append_left _ hin) (hplain c ?_)
      simpa [Signature.plainIns] using hin
    · have hlast : Yields id (fun _ => True) Respelled _ _ :=
        yields_lastParam_ellipsis hwhole helem (by simpa using hl')
      simpa using hlast

theorem yields_resultText {outs : List (List Char × TypeLiteral)} {results : List Char}
    (hr : ResultText (outs.map Prod.fst) results) (hs : ∀ c ∈ outs, Respelled c.1 c.2)
    (source : List Char) (hlt : (trim results).length < n) :
    Yields id (fun _ => True) Respelled (readResults source (trim results) hlt)
      (outs.map Prod.snd) := by
  have hwritten {text : List Char} (he : text = writeResults id ((asTexts outs).map Prod.fst))
      (hlt : (trim text).length < n) :
      Yields id (fun _ => True) Respelled (readResults source (trim text) hlt)
        (outs.map Prod.snd) := by
    rw [← snd_asTexts]
    exact yields_results (forall_asTexts fun c hc => (hs c hc).component) source (by rw [he]) hlt
  generalize hfst : outs.map Prod.fst = texts at hr
  cases hr with
  | none =>
    obtain rfl : outs = [] := List.map_eq_nil_iff.1 hfst
    exact hwritten (by rw [asTexts, List.map_nil, List.map_nil, writeResults]) hlt
  | bare text =>
    obtain ⟨z, rfl, rfl⟩ := List.map_eq_singleton_iff.1 hfst
    exact hwritten (by simp [asTexts, writeResults]) hlt
  | @round _ list hne hl =>
    subst hfst
    have hpart : ∀ text ∈ outs.map Prod.fst, Trimmed text ∧ Nested [','] text := by
      intro text ht
      obtain ⟨c, hc, rfl⟩ := List.mem_map.1 ht
      exact (hs c hc).stands.alone.part
    have hsplit : splitParts .comma list = .ok (outs.map Prod.fst) := by
      have hall := splitParts_joined hl (padding_nil .comma) (padding_nil .comma) hpart
      rwa [List.nil_append, List.append_nil] at hall
    have hlist : Nested [] list := hl.nested fun text ht => (hpart text ht).2.anywhere
    have htrim : trim (' ' :: '(' :: (list ++ [')'])) = '(' :: (list ++ [')']) :=
      trim_space_cons ⟨⟨'(', _, rfl, by decide⟩, ⟨'(' :: list, ')', rfl, by decide⟩⟩
    simp only [htrim] at hlt ⊢
    rw [← snd_asTexts]
    refine yields_resultList (by rw [texts_asTexts, hsplit]) hlist ?_ source hlt
    exact forall_asTexts fun c hc => (hs c hc).component.reads

theorem yields_signatureText {s : Signature (List Char × TypeLiteral)} {text : List Char}
    (h : SignatureText (s.map Prod.fst) text) (hw : (s.map Prod.snd).WellFormed)
    (hc : (s.map Prod.snd).Clear id) (hs : ∀ c ∈ s.types, Respelled c.1 c.2) (source : List Char)
    {hle : text.length ≤ n} :
    Yields id (fun _ => True) Respelled (readSignature source (⟨text, hle⟩ : Within n))
      (s.map Prod.snd) := by
  have halone : SignatureAlone (s.map Prod.fst) := signatureAlone hw fun c hc => (hs c hc).stands
  generalize hfst : s.map Prod.fst = u at h halone
  cases h with
  | @intro ins outs params variadic list results hp hl hr =>
    obtain ⟨rfl, rfl, rfl⟩ : s.ins.map Prod.fst = ins ∧ s.outs.map Prod.fst = outs ∧
      s.variadic = variadic := by simpa [Signature.map] using hfst
    have hlist : Nested [] list := hl.nested fun c hc => (halone.params hp c hc).2.anywhere
    refine yields_signature_text source hlist
      (fun hlt => yields_paramTexts hp hl hw hc hs source hlt) fun hlt => ?_
    exact yields_resultText hr (fun c hm => hs c (List.mem_append_right _ hm)) source hlt

/-! ## Fields and methods -/

theorem yields_fieldText {f : Field (List Char × TypeLiteral)} {text : List Char}
    (h : FieldText (retype Prod.fst f) text) (hw : FieldWellFormed (retype Prod.snd f))
    (ht : Respelled f.type.1 f.type.2) (source : List Char) (hlt : text.length < n) :
    Yields id (fun _ => True) Respelled (readField source (⟨text, hlt⟩ : Below n))
      (retype Prod.snd f) := by
  have hs := ht.stands.alone
  have hunq : unqualified f.name.toList = f.name.toList :=
    unqualified_eq (point_not_mem_of_isIdentifier hw.1)
  have hne : f.name.toList ≠ [] := ne_nil_of_isIdentifier hw.1
  have hord := isOrdinary_of_isIdentifier hw.1
  have hword (he : f.embedded = true) : Nested [' '] f.type.1 := ht.stands.word (hw.2 he).1
  have hequals := splitParts_ne_equals hs.trimmed ht.stands.entry
  have hread {name : Option (List Char)} {embedded : Bool} (hf : f.embedded = embedded)
      (hname : name = some f.name.toList ∨ name = none ∧ f.name = f.type.2.embeddedName)
      (hentry : fieldEntry text = .ok ⟨name, f.type.1, f.tag.toList, embedded⟩) :
      Yields id (fun _ => True) Respelled (readField source (⟨text, hlt⟩ : Below n))
        (retype Prod.snd f) := by
    subst hf
    exact yields_entry hw.1 hname hentry ht source hlt
  cases h with
  | embedded he =>
    have hentry := fieldEntry_type hs.nested hs.trimmed hs.getLast?_ne
      (splitParts_word hs.trimmed (hword he)) f.tag.toList
    exact hread he (.inr ⟨rfl, (hw.2 he).2⟩) hentry
  | assigned he =>
    have hentry := fieldEntry_assigned hw.1 (hword he) hs.trimmed hs.getLast?_ne f.tag.toList
    exact hread he (.inl rfl) hentry
  | declared he =>
    have hentry := fieldEntry_named (by rwa [hunq]) hord hs.nested.anywhere hs.trimmed
      hs.getLast?_ne hequals f.tag.toList
    exact hread he (.inl (congrArg some hunq)) hentry
  | @qualified he path hp =>
    have hlast : unqualified (path ++ '.' :: f.name.toList) = f.name.toList := by
      have hpoint := splitLastPoint_point (u := path) (point_not_mem_of_isIdentifier hw.1)
      rw [splitLastPoint, if_pos (by simp)] at hpoint
      exact congrArg Prod.snd (Option.some.inj hpoint)
    have hall : ∀ c ∈ path ++ '.' :: f.name.toList, IsOrdinary c := by
      intro c hc
      simp only [List.mem_append, List.mem_cons] at hc
      rcases hc with hc | rfl | hc
      · exact hp c hc
      · decide
      · exact hord c hc
    have hentry := fieldEntry_named (by rwa [hlast]) hall hs.nested.anywhere hs.trimmed
      hs.getLast?_ne hequals f.tag.toList
    exact hread he (.inl (congrArg some hlast)) hentry

theorem yields_methodText {m : Method (List Char × TypeLiteral)} {text : List Char}
    (h : MethodText (resign Prod.fst m) text) (hw : MethodWellFormed (resign Prod.snd m))
    (hc : (m.signature.map Prod.snd).Clear id) (hs : ∀ c ∈ m.signature.types, Respelled c.1 c.2)
    (hlt : text.length < n) :
    Yields id (fun _ => True) Respelled (readMethod (⟨text, hlt⟩ : Below n))
      (resign Prod.snd m) := by
  obtain @⟨sig, hsig⟩ := h
  obtain ⟨rest, rfl⟩ : ∃ rest, sig = '(' :: rest := by
    cases hsig
    exact ⟨_, rfl⟩
  exact yields_method_text hw.1 rfl (fun _ => yields_signatureText hsig hw.2 hc hs _) hlt

/-! ## One level -/

theorem yields_spelledName {path name : String} {zs : List (List Char × TypeLiteral)}
    (hw : NameWellFormed id path name (zs.map Prod.snd)) (hs : ∀ c ∈ zs, Respelled c.1 c.2) :
    Yields id (fun _ => True) Respelled
      (level (qualified id path name ++ argsText (zs.map Prod.fst)))
      (named path name (zs.map Prod.snd)) := by
  have hfst : (asTexts zs).map Prod.fst = (zs.map Prod.fst).map asText := by simp [asTexts]
  have hname : NameWellFormed id path name ((asTexts zs).map Prod.fst) :=
    nameWellFormed_congr hw (by simp [asTexts])
  have hy : Yields id (fun _ => True) Respelled _ _ := yields_named hname (fun _ => trivial)
    (forall_asTexts fun c hc => (hs c hc).component.standalone)
    (forall_asTexts fun c hc => (hs c hc).component.reads)
  rwa [hfst, snd_asTexts, write_named_asText] at hy

/-- A second name of a type is read where no type of that name is found. -/
theorem yields_alias {text : List Char} {t : TypeLiteral}
    (hname : text.all (fun c => decide (IsOrdinary c)) = true ∧ text ≠ [] ∧ text.head? ≠ some '*' ∧
      text ≠ "map".toList ∧ '.' ∉ text)
    (ht : readIdent text = (.done t : Reading text.length _)) :
    Yields id (fun _ => True) Respelled (level text) t := by
  obtain ⟨hall, hne, hstar, hmap, hpoint⟩ := hname
  have hord : ∀ c ∈ text, IsOrdinary c := List.all_iff_forall_prop.1 hall
  have hhead : Head.of (text ++ []) = .name := Head.of_name hord hne hstar hmap (.inl rfl)
  rw [List.append_nil] at hhead
  rw [level, hhead]
  simp only [readName_ident hord hpoint, ht]
  exact Yields.done _

theorem yields_structText {fs : List (Field (List Char × TypeLiteral))} {entries : List (List Char)}
    {text : List Char} (hf : List.Forall₂ FieldText (fs.map (retype Prod.fst)) entries)
    (hb : BlockText "struct" entries text)
    (hw : ∀ g ∈ fs.map (retype Prod.snd), FieldWellFormed g)
    (hs : ∀ f ∈ fs, Respelled f.type.1 f.type.2) :
    Yields id (fun _ => True) Respelled (level text)
      (shape (.struct (fs.map (retype Prod.snd)))) := by
  obtain ⟨zs, rfl, rfl, hz⟩ := exists_zip_of_forall₂ (List.forall₂_map_left_iff.1 hf)
  have hfield : ∀ z ∈ zs, FieldWellFormed (retype Prod.snd z.1) ∧
      Respelled z.1.type.1 z.1.type.2 := fun z hm =>
    ⟨hw _ (List.mem_map_of_mem (List.mem_map_of_mem hm)), hs _ (List.mem_map_of_mem hm)⟩
  have hpart : ∀ c ∈ zs.map Prod.snd, Trimmed c ∧ Nested [';'] c := by
    intro c hc
    obtain ⟨z, hm, rfl⟩ := List.mem_map.1 hc
    exact (hz z hm).part (hfield z hm).1.1 (hfield z hm).2.stands.alone
  obtain ⟨pad, inner, hp, hi, hsplit, rfl⟩ := hb.inner hpart
  let pairs := zs.map fun z => (z.2, retype Prod.snd z.1)
  have htexts : pairs.map Prod.fst = zs.map Prod.snd := by simp [pairs]
  have hfields : pairs.map Prod.snd = (zs.map Prod.fst).map (retype Prod.snd) := by simp [pairs]
  rw [← hfields]
  refine yields_struct_text hp hi (htexts ▸ hsplit) fun e he n source hlt => ?_
  obtain ⟨z, hm, rfl⟩ := List.mem_map.1 he
  exact yields_fieldText (hz z hm) (hfield z hm).1 (hfield z hm).2 source hlt

theorem yields_interfaceText {ms : List (Method (List Char × TypeLiteral))}
    {entries : List (List Char)} {text : List Char}
    (hm : List.Forall₂ MethodText (ms.map (resign Prod.fst)) entries)
    (hb : BlockText "interface" entries text)
    (hw : ∀ k ∈ ms.map (resign Prod.snd), MethodWellFormed k ∧ k.signature.Clear id)
    (hs : ∀ m ∈ ms, ∀ c ∈ m.signature.types, Respelled c.1 c.2) :
    Yields id (fun _ => True) Respelled (level text)
      (shape (.interface (ms.map (resign Prod.snd)))) := by
  obtain ⟨zs, rfl, rfl, hz⟩ := exists_zip_of_forall₂ (List.forall₂_map_left_iff.1 hm)
  have hmethod : ∀ z ∈ zs, MethodWellFormed (resign Prod.snd z.1) ∧
      (z.1.signature.map Prod.snd).Clear id ∧
      ∀ c ∈ z.1.signature.types, Respelled c.1 c.2 := by
    intro z hm
    obtain ⟨hwell, hclear⟩ := hw _ (List.mem_map_of_mem (List.mem_map_of_mem hm))
    exact ⟨hwell, hclear, hs _ (List.mem_map_of_mem hm)⟩
  have hpart : ∀ c ∈ zs.map Prod.snd, Trimmed c ∧ Nested [';'] c := by
    intro c hc
    obtain ⟨z, hm, rfl⟩ := List.mem_map.1 hc
    obtain ⟨hwell, -, htypes⟩ := hmethod z hm
    exact (hz z hm).part hwell.1 (signatureAlone hwell.2 fun c hc => (htypes c hc).stands)
  obtain ⟨pad, inner, hp, hi, hsplit, rfl⟩ := hb.inner hpart
  let pairs := zs.map fun z => (z.2, resign Prod.snd z.1)
  have htexts : pairs.map Prod.fst = zs.map Prod.snd := by simp [pairs]
  have hmethods : pairs.map Prod.snd = (zs.map Prod.fst).map (resign Prod.snd) := by simp [pairs]
  rw [← hmethods]
  refine yields_interface_text hp hi (htexts ▸ hsplit) fun e he n hlt => ?_
  obtain ⟨z, hm, rfl⟩ := List.mem_map.1 he
  obtain ⟨hwell, hclear, htypes⟩ := hmethod z hm
  exact yields_methodText (hz z hm) hwell hclear htypes hlt

theorem yields_levelText {z : Shape (List Char × TypeLiteral)} {text : List Char}
    (h : LevelText (z.mapChildren Prod.fst) text)
    (hw : NodeWellFormed id (shape (z.mapChildren Prod.snd)))
    (hc : NodeClear id (shape (z.mapChildren Prod.snd)))
    (hs : ∀ c ∈ z.children, Respelled c.1 c.2) :
    Yields id (fun _ => True) Respelled (level text) (shape (z.mapChildren Prod.snd)) := by
  have hcomponent : ∀ c ∈ z.children, Component id Respelled (asText c.1) c.2 :=
    fun c hm => (hs c hm).component
  have hwritten (hm : MemberComponents id Respelled (z.mapChildren fun c => (asText c.1, c.2)))
      (he : text = write id (shape (z.mapChildren fun c => asText c.1))) :
      Yields id (fun _ => True) Respelled (level text) (shape (z.mapChildren Prod.snd)) := by
    have hr : ∀ d ∈ (z.mapChildren fun c => (asText c.1, c.2)).children,
        Component id Respelled d.1 d.2 := by
      intro d hd
      obtain ⟨c, hc, rfl⟩ := Shape.exists_of_mem_children hd
      exact hcomponent c hc
    have hy : Yields id (fun _ => True) Respelled _ _ := yields_members hm hr
    rwa [Shape.mapChildren_mapChildren, Shape.mapChildren_mapChildren, ← he] at hy
  cases z with
  | basic b =>
    cases h with
    | basic => exact hwritten trivial (by simp [Shape.mapChildren, write])
    | byte | rune => exact yields_alias (by decide) rfl
  | array | slice | map | pointer =>
    cases h
    exact hwritten trivial (by simp [Shape.mapChildren, write])
  | chan d c =>
    cases h with
    | chan =>
      have hdir : (asText c.1).direction? = none := rfl
      exact hwritten trivial (by simp [Shape.mapChildren, write, hdir])
    | chanRound =>
      have hcr := hs c (List.mem_singleton_self c)
      obtain ⟨hlt, hhead⟩ := Head.of_chan d ('(' :: (c.1 ++ [')']))
      rw [level, hhead]
      exact yields_chan_round d hcr.stands.alone.nested.anywhere hcr _
  | func s =>
    cases h with
    | @func _ sig hsig =>
      obtain ⟨rest, hrest⟩ : ∃ rest, sig = '(' :: rest := by
        cases hsig
        exact ⟨_, rfl⟩
      obtain ⟨hle, hhead⟩ := Head.of_func (congrArg ("func".toList ++ ·) hrest)
      subst hrest
      rw [level, hhead]
      exact (yields_signatureText hsig hw hc hs _).bind (Yields.done _)
  | struct fs =>
    cases h with
    | struct hf hb => exact yields_structText hf hb hw fun f hm => hs _ (List.mem_map_of_mem hm)
  | interface ms =>
    rw [Shape.mapChildren] at h
    generalize hfst : ms.map (resign Prod.fst) = us at h
    cases h with
    | interface hm hb =>
      subst hfst
      refine yields_interfaceText hm hb (fun k hk => ⟨hw k hk, hc k hk⟩) fun m hm c hin => ?_
      exact hs c (List.mem_flatMap.2 ⟨m, hm, hin⟩)
    | any =>
      obtain rfl : ms = [] := List.map_eq_nil_iff.1 hfst
      exact yields_alias (by decide) rfl

/-- Reading a spelling of a literal asks for spellings of what is inside it, and yields the
literal. -/
theorem Respelled.yields {text : List Char} {t : TypeLiteral} (h : Respelled text t) :
    Yields id (fun _ => True) Respelled (level text) t := by
  obtain ⟨hspelled, hw, hc⟩ := h
  cases hspelled with
  | shape z htext hin =>
    refine yields_levelText htext hw.here hc.here fun c hm => ⟨hin c hm, ?_, ?_⟩
    · exact hw.inside c.2 (Shape.mem_children_map Prod.snd hm)
    · exact hc.inside c.2 (Shape.mem_children_map Prod.snd hm)
  | named path name zs hin =>
    refine yields_spelledName hw.here fun c hm => ⟨hin c hm, ?_, ?_⟩
    · exact hw.inside c.2 (List.mem_map_of_mem hm)
    · exact hc.inside c.2 (List.mem_map_of_mem hm)

end Literal

/-! ## All spellings -/

/-- Every spelling of a well-formed literal is parsed as the literal. -/
theorem parse_spelled {text : String} {t : TypeLiteral} (h : Spelled text.toList t)
    (hw : t.WellFormed) (hc : t.ClearParams) : parse text = .ok t := by
  have hr : Respelled text.toList t := ⟨h, hw, hc⟩
  have htrim : trim text.toList = text.toList := trim_of_trimmed hr.stands.alone.trimmed
  have hf : Faithful .except .plain id (fun _ => True) Respelled := faithful_plain
  exact returns_of_yields hf (fun _ _ hs => ⟨hs.stands.alone.trimmed, hs.yields⟩) (htrim.symm ▸ hr)

/-- A field of a function type and an embedded field. -/
def fieldsSample : TypeLiteral :=
  shape (.struct [
    ⟨"F", shape (.func ⟨[any, shape (.slice (shape (.basic .uint8)))],
      [shape (.chan .recv TypeLiteral.error)], true⟩), "", false⟩,
    ⟨"T", named "lib" "T" [], "", true⟩])

def fieldsSampleText : String := "struct\x7bp.F func(any,...byte) (<-chan (error));T = lib.T\x7d"

theorem spelled_fieldsSample : Spelled fieldsSampleText.toList fieldsSample := by
  have hany : Spelled "any".toList any := .shape (.interface []) .any (by simp [Shape.children])
  have hbytes : Spelled "[]byte".toList (shape (.slice (shape (.basic .uint8)))) := by
    refine .shape (.slice ("byte".toList, _)) (.slice _) fun c hc => ?_
    obtain rfl := List.mem_singleton.1 hc
    exact .shape (.basic .uint8) .byte (by simp [Shape.children])
  have hchan : Spelled "<-chan (error)".toList (shape (.chan .recv TypeLiteral.error)) := by
    refine .shape (.chan .recv ("error".toList, _)) (.chanRound .recv _) fun c hc => ?_
    obtain rfl := List.mem_singleton.1 hc
    exact .named "" "error" [] (by simp)
  have hfunc : Spelled "func(any,...byte) (<-chan (error))".toList
      (shape (.func ⟨[any, shape (.slice (shape (.basic .uint8)))],
        [shape (.chan .recv TypeLiteral.error)], true⟩)) := by
    refine .shape (.func ⟨[("any".toList, _), ("[]byte".toList, _)],
      [("<-chan (error)".toList, _)], true⟩) (.func ?_) ?_
    · exact .intro (.variadic ["any".toList] "byte".toList)
        (.cons _ (padding_nil .comma) (.one _)) (.round (by simp) (.one _))
    · simpa [Shape.children, Signature.types] using ⟨hany, hbytes, hchan⟩
  have hnamed : Spelled "lib.T".toList (.named "lib" "T" []) := .named "lib" "T" [] (by simp)
  have hfield : FieldText ⟨"F", "func(any,...byte) (<-chan (error))".toList, "", false⟩
      "p.F func(any,...byte) (<-chan (error))".toList :=
    @FieldText.qualified _ rfl "p".toList (List.all_iff_forall_prop.1 (by decide))
  have hembedded : FieldText ⟨"T", "lib.T".toList, "", true⟩ "T = lib.T".toList := .assigned rfl
  have hblock : BlockText "struct"
      ["p.F func(any,...byte) (<-chan (error))".toList, "T = lib.T".toList]
      fieldsSampleText.toList :=
    @BlockText.intro _ _ [] [] _ [] (by simp) (padding_nil _) (padding_nil _)
      (.cons _ (padding_nil _) (.one _))
  refine .shape (.struct [⟨"F", ("func(any,...byte) (<-chan (error))".toList, _), "", false⟩,
    ⟨"T", ("lib.T".toList, _), "", true⟩])
    (.struct (.cons hfield (.cons hembedded .nil)) hblock) ?_
  simpa [Shape.children] using ⟨hfunc, hnamed⟩

theorem parse_fieldsSample :
    Spelled fieldsSampleText.toList fieldsSample ∧ fieldsSample.WellFormed ∧
      fieldsSample.ClearParams ∧ parse fieldsSampleText = .ok fieldsSample := by
  have hw : fieldsSample.WellFormed := by
    unfold WellFormed WellFormedAs
    decide +kernel
  have hc : fieldsSample.ClearParams := by
    unfold ClearParams
    decide +kernel
  exact ⟨spelled_fieldsSample, hw, hc, parse_spelled spelled_fieldsSample hw hc⟩

/-- A spelling without the blank and with another name of the empty interface, in which the path of
the first parameter is still read as an ellipsis. -/
theorem parse_spelledParents :
    Spelled "func(...T,any)".toList (shape (.func ⟨[named ".." "T" [], any], [], false⟩)) ∧
      (shape (.func ⟨[named ".." "T" [], any], [], false⟩)).WellFormed ∧
      parse "func(...T,any)" = .error (.malformed "func(...T,any)" .innerEllipsis) := by
  have hany : Spelled "any".toList any := .shape (.interface []) .any (by simp [Shape.children])
  have hparent : Spelled "...T".toList (.named ".." "T" []) := .named ".." "T" [] (by simp)
  have hs : Spelled "func(...T,any)".toList
      (shape (.func ⟨[named ".." "T" [], any], [], false⟩)) := by
    refine .shape (.func ⟨[("...T".toList, _), ("any".toList, _)], [], false⟩) (.func ?_) ?_
    · exact .intro (.plain _) (.cons _ (padding_nil .comma) (.one _)) .none
    · simpa [Shape.children, Signature.types] using ⟨hparent, hany⟩
  refine ⟨hs, ?_, by decide +kernel⟩
  unfold WellFormed WellFormedAs
  decide +kernel

end TypeIdentity
