import TypeIdentity.Proofs.Literal.Transcripts

/-! # Other spellings of a literal

Next to its canonical text a literal has other texts that say the same.  At every place in the tree
the spelling is chosen anew: second names of basic types, parentheses that are not needed, padding
after separators and around braces, a name before an embedded type, a path before the name of a
field.  The canonical text is one of the spellings, and all of them are read as the literal.
-/
namespace TypeIdentity.TypeLiteral
open Text Scan Literal

/-! ## One level -/

/-- Parameters; the last one of a variadic signature shows its element after an ellipsis. -/
inductive ParamTexts : Bool → List (List Char) → List (List Char) → Prop
  | plain (ins : List (List Char)) : ParamTexts false ins ins
  | variadic (init : List (List Char)) (elem : List Char) :
    ParamTexts true (init ++ ["[]".toList ++ elem]) (init ++ ["...".toList ++ elem])

/-- Results; also a single one may stand in parentheses. -/
inductive ResultText : List (List Char) → List Char → Prop
  | none : ResultText [] []
  | bare (text : List Char) : ResultText [text] (' ' :: text)
  | round {outs : List (List Char)} {list : List Char} (hne : outs ≠ [])
      (hl : Joined .comma outs list) : ResultText outs (' ' :: '(' :: (list ++ [')']))

inductive SignatureText : Signature (List Char) → List Char → Prop
  | intro {ins outs params : List (List Char)} {variadic : Bool} {list results : List Char}
      (hp : ParamTexts variadic ins params) (hl : Joined .comma params list)
      (hr : ResultText outs results) :
      SignatureText ⟨ins, outs, variadic⟩ ('(' :: (list ++ ')' :: results))

/-- An embedded type may be assigned to its name, and the name of a field may be qualified. -/
inductive FieldText (f : Field (List Char)) : List Char → Prop
  | embedded (he : f.embedded = true) : FieldText f (f.type ++ tagSuffix f.tag.toList)
  | assigned (he : f.embedded = true) :
    FieldText f (f.name.toList ++ " = ".toList ++ f.type ++ tagSuffix f.tag.toList)
  | declared (he : f.embedded = false) :
    FieldText f (f.name.toList ++ ' ' :: f.type ++ tagSuffix f.tag.toList)
  | qualified (he : f.embedded = false) {path : List Char} (hp : ∀ c ∈ path, IsOrdinary c) :
    FieldText f (path ++ '.' :: f.name.toList ++ ' ' :: f.type ++ tagSuffix f.tag.toList)

inductive MethodText (m : Method (List Char)) : List Char → Prop
  | intro {text : List Char} (h : SignatureText m.signature text) :
    MethodText m (m.name.toList ++ text)

/-- A keyword and a body in braces, with any blanks before the braces and inside of them. -/
inductive BlockText (keyword : String) (entries : List (List Char)) : List Char → Prop
  | intro {pad before list after : List Char} (hp : ∀ c ∈ pad, isBlank c = true)
      (hb : Padding .semicolon before) (ha : Padding .semicolon after)
      (hl : Joined .semicolon entries list) :
      BlockText keyword entries
        (keyword.toList ++ pad ++ '\x7b' :: (before ++ (list ++ after) ++ ['\x7d']))

/-- A text of a shape, put together from the texts of its components. -/
inductive LevelText : Shape (List Char) → List Char → Prop
  | basic (b : BasicType) : LevelText (.basic b) b.name.toList
  | byte : LevelText (.basic .uint8) "byte".toList
  | rune : LevelText (.basic .int32) "rune".toList
  | array (n : UInt64) (e : List Char) :
    LevelText (.array n e) ('[' :: Nat.toDigits 10 n.toNat ++ ']' :: e)
  | slice (e : List Char) : LevelText (.slice e) ("[]".toList ++ e)
  | map (k e : List Char) : LevelText (.map k e) ("map[".toList ++ k ++ ']' :: e)
  | chan (d : Direction) (e : List Char) : LevelText (.chan d e) (d.lead.toList ++ e)
  | chanRound (d : Direction) (e : List Char) :
    LevelText (.chan d e) (d.lead.toList ++ '(' :: (e ++ [')']))
  | func {s : Signature (List Char)} {text : List Char} (h : SignatureText s text) :
    LevelText (.func s) ("func".toList ++ text)
  | struct {fs : List (Field (List Char))} {entries : List (List Char)} {text : List Char}
      (hf : List.Forall₂ FieldText fs entries) (hb : BlockText "struct" entries text) :
      LevelText (.struct fs) text
  | interface {ms : List (Method (List Char))} {entries : List (List Char)} {text : List Char}
      (hm : List.Forall₂ MethodText ms entries) (hb : BlockText "interface" entries text) :
      LevelText (.interface ms) text
  | any : LevelText (.interface []) "any".toList
  | pointer (e : List Char) : LevelText (.pointer e) ('*' :: e)

/-- Type arguments in their brackets; without arguments there are none. -/
def argsText (args : List (List Char)) : List Char :=
  if args = [] then [] else '[' :: (List.intercalate [','] args ++ [']'])

/-! ## All levels -/

/-- The text is one of the spellings of the literal. -/
inductive Spelled : List Char → TypeLiteral → Prop
  | shape (z : Shape (List Char × TypeLiteral)) {text : List Char}
      (h : LevelText (z.mapChildren Prod.fst) text) (hc : ∀ c ∈ z.children, Spelled c.1 c.2) :
      Spelled text (shape (z.mapChildren Prod.snd))
  | named (path name : String) (zs : List (List Char × TypeLiteral))
      (hc : ∀ c ∈ zs, Spelled c.1 c.2) :
      Spelled (qualified id path name ++ argsText (zs.map Prod.fst))
        (named path name (zs.map Prod.snd))

/-! ## Texts in the places of components -/

/-- A component that is put in as a text. -/
abbrev asText (text : List Char) : TypeLiteral := verbatim (String.ofList text)

@[simp] theorem write_asText (spell : String → String) (text : List Char) :
    (asText text).write spell = text := by
  rw [write_verbatim, String.toList_ofList]

theorem written_asText {text : List Char} (h : Standalone text) : Written id (asText text) := by
  refine ⟨by rwa [write_asText], ?_⟩
  simp [asText, verbatim, children]

theorem writeList_asText (texts : List (List Char)) :
    writeList id [','] (texts.map asText) = List.intercalate [','] texts := by
  rw [writeList_eq, List.map_map]
  exact congrArg _ ((List.map_congr_left fun t _ => write_asText id t).trans (List.map_id' texts))

theorem write_named_asText (path name : String) (texts : List (List Char)) :
    write id (named path name (texts.map asText)) = qualified id path name ++ argsText texts := by
  by_cases h : texts = []
  · rw [h, List.map_nil, write_named_nil, argsText, if_pos rfl, List.append_nil]
  · rw [write_named_args path name (by simpa using h), argsText, if_neg h, writeList_asText]

/-! ## How they stand in other texts -/

/-- The texts of a signature stand alone, and so does the element that is shown after an ellipsis. -/
structure SignatureAlone (s : Signature (List Char)) : Prop where
  types : ∀ c ∈ s.types, Standalone c
  elem : ∀ init elem, s.variadic = true → s.ins = init ++ ["[]".toList ++ elem] → Standalone elem

/-- What the texts of components need to be put together. -/
def LevelAlone : Shape (List Char) → Prop
  | .func s => SignatureAlone s
  | .struct fs => ∀ f ∈ fs, isIdentifier f.name.toList = true ∧ Standalone f.type
  | .interface ms => ∀ m ∈ ms, isIdentifier m.name.toList = true ∧ SignatureAlone m.signature
  | s => ∀ c ∈ s.children, Standalone c

theorem SignatureAlone.params {ins outs params : List (List Char)} {variadic : Bool}
    (h : SignatureAlone ⟨ins, outs, variadic⟩) (hp : ParamTexts variadic ins params) :
    ∀ c ∈ params, Trimmed c ∧ Nested [','] c := by
  have hins : ∀ c ∈ ins, Trimmed c ∧ Nested [','] c :=
    fun c hc => (h.types c (List.mem_append_left _ hc)).part
  cases hp with
  | plain => exact hins
  | variadic init elem =>
    intro c hc
    rcases List.mem_append.1 hc with hc | hc
    · exact hins c (List.mem_append_left _ hc)
    · obtain rfl := List.mem_singleton.1 hc
      exact part_ellipsis (h.elem init elem rfl rfl)

theorem SignatureText.ended {s : Signature (List Char)} {text : List Char}
    (h : SignatureText s text) (hs : SignatureAlone s) : Ended text := by
  cases h with
  | @intro ins outs params variadic list results hp hl hr =>
    have hlist : Nested [] list := hl.nested fun c hc => (hs.params hp c hc).2.anywhere
    have hparams : Ended ('(' :: list ++ [')']) := Ended.brackets .round hlist
    have houts : ∀ c ∈ outs, Standalone c := fun c hc => hs.types c (List.mem_append_right _ hc)
    have hspace : Nested [',', ';'] [' '] := Nested.of_plain (by simp [IsPlain])
    cases hr with
    | none => exact hparams
    | bare text =>
      have hres := ((houts text (List.mem_singleton_self _)).toEnded.append hspace).append
        hparams.nested
      simpa using hres
    | @round _ list' _ hl' =>
      have hlist' : Nested [] list' := hl'.nested fun c hc => (houts c hc).nested.anywhere
      have hres := ((Ended.brackets .round hlist').append hspace).append hparams.nested
      simpa [Bracket.opener, Bracket.closer] using hres

theorem FieldText.part {f : Field (List Char)} {text : List Char} (h : FieldText f text)
    (hf : isIdentifier f.name.toList = true) (ht : Standalone f.type) :
    Trimmed text ∧ Nested [';'] text := by
  have hord := isOrdinary_of_isIdentifier hf
  have hne := ne_nil_of_isIdentifier hf
  have htype : Nested [';'] f.type := ht.nested.mono (by simp)
  have hspaced (word : List Char) (hw : ∀ c ∈ word, IsOrdinary c) (hwne : word ≠ []) :
      Trimmed (word ++ ' ' :: f.type) ∧ Nested [';'] (word ++ ' ' :: f.type) := by
    obtain ⟨c, rest, he, hc⟩ := (trimmed_of_ordinary hwne hw).first
    obtain ⟨init, d, hd⟩ := ht.trimmed.last
    refine ⟨⟨⟨c, rest ++ ' ' :: f.type, by simp [he], hc⟩,
      ⟨word ++ ' ' :: init, d, by simp [hd.1], hd.2⟩⟩, ?_⟩
    exact (Nested.of_ordinary hw (by simp)).append (.char (by simp [IsPlain]) (by simp) htype)
  have hsuffix {u : List Char} (hu : Trimmed u ∧ Nested [';'] u) :
      Trimmed (u ++ tagSuffix f.tag.toList) ∧ Nested [';'] (u ++ tagSuffix f.tag.toList) :=
    ⟨trimmed_tagSuffix hu.1 _, hu.2.append (nested_tagSuffix (by simp) _)⟩
  cases h with
  | embedded => exact hsuffix ⟨ht.trimmed, htype⟩
  | assigned =>
    obtain ⟨htrim, hnest⟩ := hspaced ['='] (List.all_iff_forall_prop.1 (by decide)) (by simp)
    obtain ⟨c, rest, he, hc⟩ := (trimmed_of_ordinary hne hord).first
    obtain ⟨init, d, hd⟩ := htrim.last
    have hall : Trimmed (f.name.toList ++ ' ' :: (['='] ++ ' ' :: f.type)) ∧
        Nested [';'] (f.name.toList ++ ' ' :: (['='] ++ ' ' :: f.type)) :=
      ⟨⟨⟨c, rest ++ ' ' :: (['='] ++ ' ' :: f.type), by simp [he], hc⟩,
        ⟨f.name.toList ++ ' ' :: init, d, by rw [hd.1]; simp, hd.2⟩⟩,
        (Nested.of_ordinary hord (by simp)).append (.char (by simp [IsPlain]) (by simp) hnest)⟩
    simpa using hsuffix hall
  | declared => exact hsuffix (hspaced _ hord hne)
  | @qualified _ path hp =>
    refine hsuffix (hspaced (path ++ '.' :: f.name.toList) ?_ (by simp))
    intro c hc
    simp only [List.mem_append, List.mem_cons] at hc
    rcases hc with hc | rfl | hc
    · exact hp c hc
    · decide
    · exact hord c hc

theorem MethodText.part {m : Method (List Char)} {text : List Char} (h : MethodText m text)
    (hm : isIdentifier m.name.toList = true) (hs : SignatureAlone m.signature) :
    Trimmed text ∧ Nested [';'] text := by
  obtain @⟨sig, hsig⟩ := h
  have hord := isOrdinary_of_isIdentifier hm
  obtain ⟨c, rest, he, hc⟩ := (trimmed_of_ordinary (ne_nil_of_isIdentifier hm) hord).first
  have hends := (hsig.ended hs).append (Nested.of_ordinary hord (by simp))
  refine ⟨⟨⟨c, rest ++ sig, by rw [he, List.cons_append], hc⟩, ?_⟩, hends.nested.mono (by simp)⟩
  obtain ⟨init, d, hd, hb, -⟩ := hends.last
  exact ⟨init, d, hd, hb⟩

/-- The body of a block is cut to its entries. -/
theorem BlockText.inner {keyword : String} {entries : List (List Char)} {text : List Char}
    (h : BlockText keyword entries text) (he : ∀ c ∈ entries, Trimmed c ∧ Nested [';'] c) :
    ∃ pad inner, (∀ c ∈ pad, isBlank c = true) ∧ Nested [] inner ∧
      splitParts .semicolon inner = .ok entries ∧
      text = keyword.toList ++ pad ++ '\x7b' :: (inner ++ ['\x7d']) := by
  obtain @⟨pad, before, list, after, hp, hb, ha, hl⟩ := h
  have hlist : Nested [] list := hl.nested fun c hc => (he c hc).2.anywhere
  exact ⟨pad, _, hp, hb.nested.anywhere.append (hlist.append ha.nested.anywhere),
    splitParts_joined hl hb ha he, rfl⟩

theorem BlockText.standalone {keyword : String} {entries : List (List Char)} {text : List Char}
    (h : BlockText keyword entries text) (hk : ∀ c ∈ keyword.toList, IsOrdinary c)
    (hne : keyword.toList ≠ []) (he : ∀ c ∈ entries, Trimmed c ∧ Nested [';'] c) :
    Standalone text := by
  obtain ⟨c, rest, hc⟩ := List.exists_cons_of_ne_nil hne
  obtain ⟨pad, inner, hp, hi, -, rfl⟩ := h.inner he
  exact standalone_block hk hc hp hi

/-- Texts of entries, paired with the entries. -/
theorem exists_zip_of_forall₂ {α β : Type} {r : α → β → Prop} {as : List α} {bs : List β}
    (h : List.Forall₂ r as bs) :
    ∃ zs : List (α × β), as = zs.map Prod.fst ∧ bs = zs.map Prod.snd ∧ ∀ z ∈ zs, r z.1 z.2 := by
  obtain ⟨hlen, hz⟩ := List.forall₂_iff_zip.1 h
  exact ⟨as.zip bs, (List.map_fst_zip hlen.le).symm, (List.map_snd_zip hlen.ge).symm,
    fun z hm => hz hm⟩

theorem LevelText.standalone {s : Shape (List Char)} {text : List Char} (h : LevelText s text)
    (hs : LevelAlone s) : Standalone text := by
  have hshape (u : Shape (List Char)) (hm : MembersWellFormed (u.mapChildren asText))
      (hu : ∀ c ∈ u.children, Standalone c) :
      Standalone (write id (shape (u.mapChildren asText))) := by
    refine standalone_shape hm fun c hc => ?_
    obtain ⟨d, hd, rfl⟩ := Shape.exists_of_mem_children hc
    exact written_asText (hu d hd)
  cases h with
  | basic b => exact standalone_basic b
  | byte | rune => exact Standalone.of_ordinary (by decide) (List.all_iff_forall_prop.1 (by decide))
  | any => exact Standalone.of_ordinary (by decide) (List.all_iff_forall_prop.1 (by decide))
  | array n e => simpa [Shape.mapChildren, write] using hshape (.array n e) trivial hs
  | slice e => simpa [Shape.mapChildren, write] using hshape (.slice e) trivial hs
  | map k e => simpa [Shape.mapChildren, write] using hshape (.map k e) trivial hs
  | pointer e => simpa [Shape.mapChildren, write] using hshape (.pointer e) trivial hs
  | chan d e => exact standalone_lead d (hs e (List.mem_singleton_self e)).toEnded
  | chanRound d e =>
    have he : Nested [] e := (hs e (List.mem_singleton_self e)).nested.anywhere
    exact standalone_lead d (Ended.brackets .round he)
  | func h =>
    have hlead : Nested [',', ';'] ['f', 'u', 'n', 'c'] := Nested.of_plain (by simp [IsPlain])
    exact (h.ended hs).standalone hlead rfl (by decide)
  | struct hf hb =>
    obtain ⟨zs, rfl, rfl, hz⟩ := exists_zip_of_forall₂ hf
    refine hb.standalone (List.all_iff_forall_prop.1 (by decide)) (by decide) fun c hc => ?_
    obtain ⟨z, hm, rfl⟩ := List.mem_map.1 hc
    obtain ⟨hname, htype⟩ := hs z.1 (List.mem_map_of_mem hm)
    exact (hz z hm).part hname htype
  | interface hm hb =>
    obtain ⟨zs, rfl, rfl, hz⟩ := exists_zip_of_forall₂ hm
    refine hb.standalone (List.all_iff_forall_prop.1 (by decide)) (by decide) fun c hc => ?_
    obtain ⟨z, hmem, rfl⟩ := List.mem_map.1 hc
    obtain ⟨hname, hsig⟩ := hs z.1 (List.mem_map_of_mem hmem)
    exact (hz z hmem).part hname hsig

theorem LevelText.first {s : Shape (List Char)} {text : List Char} (h : LevelText s text) :
    ∃ c rest, text = c :: rest ∧ (c.isAlpha = true ∨ c ∈ ['[', '*', '<']) := by
  have hlead (d : Direction) (rest : List Char) : ∃ c more, d.lead.toList ++ rest = c :: more ∧
      (c.isAlpha = true ∨ c ∈ ['[', '*', '<']) := by
    cases d with
    | send | both => exact ⟨'c', _, rfl, by decide⟩
    | recv => exact ⟨'<', _, rfl, by decide⟩
  cases h with
  | basic b =>
    obtain ⟨c, rest, he, hc⟩ := first_shape id (.basic b)
    exact ⟨c, rest, by rw [← he, write], hc⟩
  | byte => exact ⟨'b', _, rfl, by decide⟩
  | rune => exact ⟨'r', _, rfl, by decide⟩
  | array | slice => exact ⟨'[', _, rfl, by decide⟩
  | map => exact ⟨'m', _, rfl, by decide⟩
  | chan d e => exact hlead d e
  | chanRound d e => exact hlead d _
  | func => exact ⟨'f', _, rfl, by decide⟩
  | struct _ hb => cases hb; exact ⟨'s', _, rfl, by decide⟩
  | interface _ hb => cases hb; exact ⟨'i', _, rfl, by decide⟩
  | any => exact ⟨'a', _, rfl, by decide⟩
  | pointer => exact ⟨'*', _, rfl, by decide⟩

/-! ## The canonical spelling -/

theorem signatureText_write {s : Signature TypeLiteral} (hw : s.WellFormed) :
    SignatureText (s.map (write id)) (writeSignature id s) := by
  have hspace : Padding .comma [' '] := padding_space (by decide)
  have hlist : writeSignature id s =
      '(' :: (writeParams id s.variadic s.ins ++ ')' :: writeResults id s.outs) := by
    obtain ⟨ins, outs, variadic⟩ := s
    rw [writeSignature]
    rfl
  have hresults : ResultText (s.outs.map (write id)) (writeResults id s.outs) := by
    rcases s.outs with _ | ⟨t, _ | ⟨u, rest⟩⟩
    · rw [writeResults]
      exact .none
    · rw [writeResults]
      exact .bare _
    · have htext : writeResults id (t :: u :: rest) =
          ' ' :: '(' :: (writeList id [',', ' '] (t :: u :: rest) ++ [')']) := by
        simp [writeResults]
      rw [htext, writeList_eq]
      exact .round (by simp) (.intercalate hspace _)
  obtain ⟨params, hp, htext⟩ : ∃ params, ParamTexts s.variadic (s.ins.map (write id)) params ∧
      writeParams id s.variadic s.ins = List.intercalate [',', ' '] params := by
    rcases hw.params with hv | ⟨init, e, hv, hins⟩
    · rw [hv]
      exact ⟨_, .plain _, writeParams_plain id s.ins⟩
    · rw [hv, hins, List.map_append, List.map_singleton]
      have hslice : write id (shape (.slice e)) = "[]".toList ++ write id e := by simp [write]
      rw [hslice]
      exact ⟨_, .variadic _ _, writeParams_variadic id init e⟩
  rw [hlist, htext]
  exact .intro hp (.intercalate hspace params) hresults

theorem fieldText_write (f : Field TypeLiteral) :
    FieldText (retype (write id) f) (writeField id f) := by
  rw [writeField_eq]
  cases he : f.embedded with
  | true => simpa using FieldText.embedded (f := retype (write id) f) he
  | false => simpa using FieldText.declared (f := retype (write id) f) he

theorem blockText_body (keyword : String) (entries : List (List Char)) :
    BlockText keyword entries
      (keyword.toList ++ [' '] ++ '\x7b' :: (body entries ++ ['\x7d'])) := by
  have hspace : Padding .semicolon [' '] := padding_space (by decide)
  by_cases he : entries = []
  · subst he
    exact .intro isBlank_space (padding_nil .semicolon) (padding_nil .semicolon) .nil
  · rw [body, if_neg he]
    exact .intro isBlank_space hspace hspace (.intercalate hspace entries)

theorem levelText_write {s : Shape TypeLiteral} (hw : MembersWellFormed s) :
    LevelText (s.mapChildren (write id)) (write id (shape s)) := by
  cases s with
  | basic b =>
    rw [write]
    exact .basic b
  | array n e =>
    rw [write]
    exact .array n _
  | slice e =>
    rw [write]
    exact .slice _
  | map k e =>
    rw [write]
    exact .map _ _
  | pointer e =>
    rw [write]
    exact .pointer _
  | chan d e =>
    rw [write]
    split
    · simpa [Shape.mapChildren] using LevelText.chanRound d (write id e)
    · exact .chan d _
  | func s =>
    rw [write]
    exact .func (signatureText_write hw)
  | struct fs =>
    have hf : List.Forall₂ FieldText (fs.map (retype (write id))) (fs.map (writeField id)) := by
      rw [List.forall₂_map_left_iff, List.forall₂_map_right_iff, List.forall₂_same]
      exact fun f _ => fieldText_write f
    rw [write_struct]
    exact .struct hf (blockText_body _ _)
  | interface ms =>
    have hm : List.Forall₂ MethodText (ms.map (resign (write id))) (ms.map (writeMethod id)) := by
      rw [List.forall₂_map_left_iff, List.forall₂_map_right_iff, List.forall₂_same]
      intro m hmem
      rw [writeMethod]
      exact .intro (signatureText_write (hw m hmem).2)
    rw [write_interface]
    exact .interface hm (blockText_body _ _)

/-- The canonical text is one of the spellings. -/
theorem spelled_write {t : TypeLiteral} (hw : t.WellFormed) : Spelled (t.write id) t := by
  induction t with
  | shape s ih =>
    let z := s.mapChildren fun c => (write id c, c)
    have hfst : z.mapChildren Prod.fst = s.mapChildren (write id) := by
      simp [z, Shape.mapChildren_mapChildren]
    have hsnd : z.mapChildren Prod.snd = s := by
      simp only [z, Shape.mapChildren_mapChildren]
      exact Shape.mapChildren_id s
    have hc : ∀ c ∈ z.children, Spelled c.1 c.2 := by
      intro c hc
      obtain ⟨u, hu, rfl⟩ := Shape.exists_of_mem_children hc
      exact ih u hu (hw.inside u hu)
    have hlevel := levelText_write (NodeWellFormed.members hw.here)
    rw [← hfst] at hlevel
    have hspelled := Spelled.shape z hlevel hc
    rwa [hsnd] at hspelled
  | named path name args ih =>
    let zs := args.map fun a => (write id a, a)
    have hc : ∀ c ∈ zs, Spelled c.1 c.2 := by
      intro c hc
      obtain ⟨u, hu, rfl⟩ := List.mem_map.1 hc
      exact ih u hu (hw.inside u hu)
    have hargs : zs.map Prod.snd = args := by simp [zs, Function.comp_def]
    have htext : write id (.named path name args) =
        qualified id path name ++ argsText (zs.map Prod.fst) := by
      have hfst : zs.map Prod.fst = args.map (write id) := by simp [zs]
      by_cases he : args = []
      · rw [hfst, he, write_named_nil, List.map_nil, argsText, if_pos rfl, List.append_nil]
      · rw [hfst, write_named_args path name he, argsText, if_neg (by simpa using he),
          writeList_eq]
    rw [htext]
    exact hargs ▸ Spelled.named path name zs hc

end TypeIdentity.TypeLiteral
