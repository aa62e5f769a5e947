import TypeIdentity.Proofs.Literal.Entries
import TypeIdentity.Proofs.Literal.WellFormed
import TypeIdentity.Proofs.Text.Numerals

/-! # The texts of well-formed literals

The text of a well-formed literal is nested without separators outside of brackets, and what it
begins and ends with is not mistaken for the blanks, parentheses and quotes around it.
-/
namespace TypeIdentity.TypeLiteral
open Text Scan Literal

/-- Nested, and with an end that belongs to it. -/
structure Ended (text : List Char) : Prop where
  nested : Nested [',', ';'] text
  last : ∃ init c, text = init ++ [c] ∧ isBlank c = false ∧ c ≠ '"'

/-- What is known of the text of a type wherever it stands. -/
structure Standalone (text : List Char) : Prop extends Ended text where
  first : ∃ c rest, text = c :: rest ∧ isBlank c = false ∧ c ≠ '('

namespace Ended
variable {text lead inner : List Char}

theorem getLast?_ne (h : Ended text) : text.getLast? ≠ some '"' := by
  obtain ⟨init, d, rfl, -, hd⟩ := h.last
  simpa using hd

theorem append (hl : Nested [',', ';'] lead) (h : Ended text) : Ended (lead ++ text) := by
  obtain ⟨init, d, ht, hd⟩ := h.last
  exact ⟨hl.append h.nested, ⟨lead ++ init, d, by rw [ht, List.append_assoc], hd⟩⟩

theorem brackets (kind : Bracket) (h : Nested [] inner) :
    Ended (kind.opener :: inner ++ [kind.closer]) := by
  refine ⟨Nested.brackets kind h, ⟨kind.opener :: inner, kind.closer, rfl, ?_⟩⟩
  cases kind <;> decide

theorem standalone {c : Char} {rest : List Char} (hl : Nested [',', ';'] lead)
    (he : lead = c :: rest) (hc : isBlank c = false ∧ c ≠ '(') (h : Ended text) :
    Standalone (lead ++ text) :=
  ⟨h.append hl, ⟨c, rest ++ text, by rw [he, List.cons_append], hc⟩⟩

end Ended

namespace Standalone
variable {text : List Char}

theorem trimmed (h : Standalone text) : Trimmed text := by
  obtain ⟨c, rest, hf, hc, -⟩ := h.first
  obtain ⟨init, d, hl, hd, -⟩ := h.last
  exact ⟨⟨c, rest, hf, hc⟩, ⟨init, d, hl, hd⟩⟩

theorem part (h : Standalone text) : Trimmed text ∧ Nested [','] text :=
  ⟨h.trimmed, h.nested.mono (by simp)⟩

theorem head?_ne (h : Standalone text) : text.head? ≠ some '(' := by
  obtain ⟨c, rest, rfl, -, hc⟩ := h.first
  simpa using hc

theorem of_ordinary (hne : text ≠ []) (h : ∀ c ∈ text, IsOrdinary c) : Standalone text := by
  have hmarks : ∀ c, IsOrdinary c → c ≠ '(' ∧ c ≠ '"' := by
    intro c hc
    constructor <;> rintro rfl <;> exact hc.2 (by decide)
  obtain ⟨⟨c, rest, hf, hc⟩, ⟨init, d, hl, hd⟩⟩ := trimmed_of_ordinary hne h
  refine ⟨⟨Nested.of_ordinary h (by simp), ⟨init, d, hl, hd, ?_⟩⟩, ⟨c, rest, hf, hc, ?_⟩⟩
  · exact (hmarks d (h d (by simp [hl]))).2
  · exact (hmarks c (h c (by simp [hf]))).1

end Standalone

/-! ## Lists in texts -/

section Lists
variable (spell : String → String)

theorem writeList_eq (sep : List Char) (ts : List TypeLiteral) :
    writeList spell sep ts = List.intercalate sep (ts.map (write spell)) := by
  induction ts with
  | nil => simp [writeList]
  | cons t ts ih =>
    cases ts with
    | nil => simp [writeList]
    | cons u ts =>
      rw [writeList, ih]
      · simp
      · simp

theorem writeFields_eq (fs : List (Field TypeLiteral)) :
    writeFields spell fs = List.intercalate [';', ' '] (fs.map (writeField spell)) := by
  induction fs with
  | nil => simp [writeFields]
  | cons f fs ih =>
    cases fs with
    | nil => simp [writeFields]
    | cons g fs =>
      rw [writeFields, ih]
      · simp
      · simp

theorem writeMethods_eq (ms : List (Method TypeLiteral)) :
    writeMethods spell ms = List.intercalate [';', ' '] (ms.map (writeMethod spell)) := by
  induction ms with
  | nil => simp [writeMethods]
  | cons m ms ih =>
    cases ms with
    | nil => simp [writeMethods]
    | cons n ms =>
      rw [writeMethods, ih]
      · simp
      · simp

theorem writeParams_cons_cons (variadic : Bool) (t u : TypeLiteral) (rest : List TypeLiteral) :
    writeParams spell variadic (t :: u :: rest) =
      write spell t ++ [',', ' '] ++ writeParams spell variadic (u :: rest) := by
  rw [writeParams]
  · rfl
  · simp
  · simp

theorem writeParams_plain (ins : List TypeLiteral) :
    writeParams spell false ins = List.intercalate [',', ' '] (ins.map (write spell)) := by
  induction ins with
  | nil => simp [writeParams]
  | cons t ins ih =>
    cases ins with
    | nil =>
      cases t with
      | named => simp [writeParams]
      | shape s => cases s <;> simp [writeParams, write]
    | cons u ins =>
      rw [writeParams_cons_cons, ih]
      simp

/-- The last parameter of a variadic signature shows its element after an ellipsis. -/
theorem writeParams_variadic (init : List TypeLiteral) (e : TypeLiteral) :
    writeParams spell true (init ++ [shape (.slice e)]) =
      List.intercalate [',', ' ']
        (init.map (write spell) ++ [['.', '.', '.'] ++ write spell e]) := by
  induction init with
  | nil => simp [writeParams]
  | cons t init ih =>
    cases init with
    | nil =>
      rw [List.nil_append] at ih
      rw [List.singleton_append, writeParams_cons_cons, ih]
      simp
    | cons u init =>
      rw [List.cons_append] at ih
      rw [List.cons_append, List.cons_append, writeParams_cons_cons, ih]
      simp

end Lists

/-! ## One node -/

variable {spell : String → String}

/-- The text of a literal and the texts of its components stand alone. -/
def Written (spell : String → String) (t : TypeLiteral) : Prop :=
  Standalone (t.write spell) ∧ ∀ c ∈ t.children, Standalone (c.write spell)

theorem nested_writeList {sep : List Char} {ts : List TypeLiteral} (hsep : Nested [] sep)
    (h : ∀ t ∈ ts, Standalone (t.write spell)) : Nested [] (writeList spell sep ts) := by
  rw [writeList_eq]
  apply Nested.intercalate hsep
  intro text hm
  obtain ⟨t, ht, rfl⟩ := List.mem_map.1 hm
  exact (h t ht).nested.anywhere

theorem nested_writeParams {s : Signature TypeLiteral} (hw : s.WellFormed)
    (h : ∀ t ∈ s.ins, Written spell t) : Nested [] (writeParams spell s.variadic s.ins) := by
  have hsep : Nested [] [',', ' '] := Nested.of_plain (by simp [IsPlain])
  have htext (ts : List TypeLiteral) (hts : ∀ t ∈ ts, Written spell t) :
      ∀ text ∈ ts.map (write spell), Nested [] text := by
    intro text hm
    obtain ⟨t, ht, rfl⟩ := List.mem_map.1 hm
    exact (hts t ht).1.nested.anywhere
  rcases hw.params with hv | ⟨init, e, hv, hins⟩
  · rw [hv, writeParams_plain]
    exact Nested.intercalate hsep (htext s.ins h)
  · rw [hins] at h
    have hlast : Written spell (shape (.slice e)) := h _ (by simp)
    have helem : Standalone (e.write spell) := hlast.2 e (by simp [children, Shape.children])
    have hdots : Nested [] ['.', '.', '.'] := Nested.of_plain (by simp [IsPlain])
    rw [hv, hins, writeParams_variadic]
    apply Nested.intercalate hsep
    intro text hm
    rcases List.mem_append.1 hm with hm | hm
    · exact htext init (fun t ht => h t (List.mem_append_left _ ht)) text hm
    · obtain rfl := List.mem_singleton.1 hm
      exact hdots.append helem.nested.anywhere

theorem ended_writeSignature {s : Signature TypeLiteral} (hw : s.WellFormed)
    (h : ∀ t ∈ s.types, Written spell t) : Ended (writeSignature spell s) := by
  obtain ⟨ins, outs, variadic⟩ := s
  have hins : Nested [] (writeParams spell variadic ins) :=
    nested_writeParams hw fun t ht => h t (List.mem_append_left _ ht)
  have houts : ∀ t ∈ outs, Standalone (t.write spell) := by
    intro t ht
    exact (h t (List.mem_append_right _ ht)).1
  have hspace : Nested [',', ';'] [' '] := Nested.of_plain (by simp [IsPlain])
  have hparams : Ended ('(' :: writeParams spell variadic ins ++ [')']) := Ended.brackets .round hins
  rw [writeSignature]
  rcases outs with _ | ⟨t, _ | ⟨u, rest⟩⟩
  · simpa [writeResults] using hparams
  · have hres := ((houts t (List.mem_cons_self ..)).toEnded.append hspace).append hparams.nested
    simpa [writeResults] using hres
  · have hsep : Nested [] [',', ' '] := Nested.of_plain (by simp [IsPlain])
    have hlist := Ended.brackets .round (nested_writeList hsep houts)
    have hres := (hlist.append hspace).append hparams.nested
    simpa [writeResults, Bracket.opener, Bracket.closer] using hres

theorem writeField_eq (f : Field TypeLiteral) :
    writeField spell f = (if f.embedded then [] else f.name.toList ++ [' ']) ++
      f.type.write spell ++ tagSuffix f.tag.toList := by
  obtain ⟨name, type, tag, embedded⟩ := f
  have htag : tag = "" ↔ tag.toList = [] := by simp
  simp only [writeField, tagSuffix, htag]

theorem nested_tagSuffix {stops : List Char} (hs : ' ' ∉ stops) (tag : List Char) :
    Nested stops (tagSuffix tag) := by
  rw [tagSuffix]
  split
  · exact Nested.nil
  · have hq := Nested.quoted tag (Nested.nil : Nested stops [])
    rw [List.append_nil] at hq
    exact Nested.char (by simp [IsPlain]) hs hq

theorem field_part {f : Field TypeLiteral} (hf : isIdentifier f.name.toList = true)
    (ht : Standalone (f.type.write spell)) :
    Trimmed (writeField spell f) ∧ Nested [';'] (writeField spell f) := by
  have hord := isOrdinary_of_isIdentifier hf
  have hname : Nested [';'] (if f.embedded then [] else f.name.toList ++ [' ']) := by
    split
    · exact Nested.nil
    · exact (Nested.of_ordinary hord (by simp)).append (Nested.of_plain (by simp [IsPlain]))
  have hstart : Trimmed
      ((if f.embedded then [] else f.name.toList ++ [' ']) ++ f.type.write spell) := by
    split
    · exact ht.trimmed
    · obtain ⟨c, rest, he, hc⟩ := (trimmed_of_ordinary (ne_nil_of_isIdentifier hf) hord).first
      obtain ⟨init, d, hd⟩ := ht.trimmed.last
      refine ⟨⟨c, rest ++ ' ' :: f.type.write spell, by simp [he], hc⟩, ?_⟩
      exact ⟨f.name.toList ++ ' ' :: init, d, by simp [hd.1], hd.2⟩
  rw [writeField_eq]
  refine ⟨trimmed_tagSuffix hstart _, ?_⟩
  exact (hname.append (ht.nested.mono (by simp))).append (nested_tagSuffix (by simp) _)

theorem method_part {m : Method TypeLiteral} (hm : MethodWellFormed m)
    (ht : ∀ t ∈ m.signature.types, Written spell t) :
    Trimmed (writeMethod spell m) ∧ Nested [';'] (writeMethod spell m) := by
  obtain ⟨name, signature⟩ := m
  have hord := isOrdinary_of_isIdentifier hm.1
  have hsig : Ended (writeSignature spell signature) := ended_writeSignature hm.2 ht
  obtain ⟨c, rest, he, hc⟩ := (trimmed_of_ordinary (ne_nil_of_isIdentifier hm.1) hord).first
  have hends := hsig.append (Nested.of_ordinary hord (by simp))
  rw [writeMethod]
  refine ⟨⟨⟨c, rest ++ writeSignature spell signature, ?_, hc⟩, ?_⟩, hends.nested.mono (by simp)⟩
  · simp only at he
    rw [he, List.cons_append]
  · obtain ⟨init, d, hd, hb, -⟩ := hends.last
    exact ⟨init, d, hd, hb⟩

/-! ## Names -/

def qualified (spell : String → String) (path name : String) : List Char :=
  (if path = "" then [] else (spell path).toList ++ ['.']) ++ name.toList

theorem isOrdinary_qualified {path name : String} {args : List TypeLiteral}
    (h : NameWellFormed spell path name args) :
    qualified spell path name ≠ [] ∧ ∀ c ∈ qualified spell path name, IsOrdinary c := by
  rcases h with ⟨rfl, rfl, -⟩ | ⟨hne, hpath, hname, -⟩
  · have he : qualified spell "" "error" = "error".toList := rfl
    rw [he]
    exact ⟨by decide, List.all_iff_forall_prop.1 (by decide)⟩
  · have hord := isOrdinary_of_isIdentifier hname
    have hpoint : IsOrdinary '.' := by decide
    rw [qualified, if_neg hne]
    refine ⟨by simp, ?_⟩
    intro c hc
    simp only [List.mem_append, List.mem_singleton] at hc
    rcases hc with (hc | rfl) | hc
    · exact hpath.ordinary c hc
    · exact hpoint
    · exact hord c hc

theorem write_named_nil (path name : String) :
    write spell (named path name []) = qualified spell path name := by
  simp [write, qualified]

theorem write_named_args (path name : String) {args : List TypeLiteral} (h : args ≠ []) :
    write spell (named path name args) =
      qualified spell path name ++ '[' :: (writeList spell [','] args ++ [']']) := by
  obtain ⟨a, rest, rfl⟩ := List.exists_cons_of_ne_nil h
  simp [write, qualified]

/-- After the qualified name stands nothing, or the brackets of the arguments. -/
theorem write_named_eq (spell : String → String) (path name : String) (args : List TypeLiteral) :
    ∃ tail, write spell (named path name args) = qualified spell path name ++ tail ∧
      (tail = [] ∨ ∃ u, tail = '[' :: u) := by
  by_cases h : args = []
  · exact ⟨[], by rw [h, write_named_nil, List.append_nil], .inl rfl⟩
  · exact ⟨_, write_named_args path name h, .inr ⟨_, rfl⟩⟩

theorem nested_args {args : List TypeLiteral} (h : ∀ a ∈ args, Standalone (a.write spell)) :
    Nested [] (writeList spell [','] args) :=
  nested_writeList (Nested.of_plain (by simp [IsPlain])) h

theorem nested_write_named {path name : String} {args : List TypeLiteral}
    (h : NameWellFormed spell path name args) (ha : ∀ a ∈ args, Standalone (a.write spell)) :
    Nested [',', ';', ' '] (write spell (named path name args)) := by
  obtain ⟨-, hord⟩ := isOrdinary_qualified h
  have hbase : Nested [',', ';', ' '] (qualified spell path name) :=
    Nested.of_ordinary hord (by simp)
  by_cases hne : args = []
  · rwa [hne, write_named_nil]
  · rw [write_named_args path name hne]
    exact hbase.append (Nested.brackets .square (nested_args ha))

/-! ## All nodes -/

theorem isOrdinary_basic (b : BasicType) : ∀ c ∈ b.name.toList, IsOrdinary c := by
  have hall : ∀ b ∈ BasicType.all, (b.name.toList.all fun c => IsOrdinary c) = true := by decide
  exact List.all_iff_forall_prop.1 (hall b (BasicType.mem_all b))

theorem standalone_basic (b : BasicType) : Standalone b.name.toList := by
  have hall : ∀ b ∈ BasicType.all, b.name.toList ≠ [] := by decide
  exact Standalone.of_ordinary (hall b (BasicType.mem_all b)) (isOrdinary_basic b)

theorem standalone_lead (d : Direction) {text : List Char} (h : Ended text) :
    Standalone (d.lead.toList ++ text) := by
  have hlead : ∀ c ∈ d.lead.toList, IsPlain c ∧ c ∉ [',', ';'] := by
    cases d <;> simp [Direction.lead, IsPlain]
  have hfirst : ∃ c rest, d.lead.toList = c :: rest ∧ isBlank c = false ∧ c ≠ '(' := by
    cases d with
    | send | both => exact ⟨'c', _, rfl, by decide⟩
    | recv => exact ⟨'<', _, rfl, by decide⟩
  obtain ⟨c, rest, he, hc⟩ := hfirst
  exact h.standalone (Nested.of_plain hlead) he hc

/-- What stands between the braces of a struct or an interface. -/
def body (texts : List (List Char)) : List Char :=
  if texts = [] then [] else [' '] ++ (List.intercalate [';', ' '] texts ++ [' '])

theorem nested_body {texts : List (List Char)} (h : ∀ t ∈ texts, Nested [';'] t) :
    Nested [] (body texts) := by
  have hspace : Nested [] [' '] := Nested.of_plain (by simp [IsPlain])
  have hsep : Nested [] [';', ' '] := Nested.of_plain (by simp [IsPlain])
  rw [body]
  split
  · exact Nested.nil
  · have hlist : Nested [] (List.intercalate [';', ' '] texts) :=
      Nested.intercalate hsep fun t ht => (h t ht).anywhere
    exact hspace.append (hlist.append hspace)

theorem write_struct (spell : String → String) (fs : List (Field TypeLiteral)) :
    write spell (shape (.struct fs)) =
      "struct".toList ++ [' '] ++ '\x7b' :: (body (fs.map (writeField spell)) ++ ['\x7d']) := by
  cases fs <;> simp [write, body, writeFields_eq]

theorem write_interface (spell : String → String) (ms : List (Method TypeLiteral)) :
    write spell (shape (.interface ms)) =
      "interface".toList ++ [' '] ++ '\x7b' :: (body (ms.map (writeMethod spell)) ++ ['\x7d']) := by
  cases ms <;> simp [write, body, writeMethods_eq]

theorem standalone_block {keyword pad : List Char} {c : Char} {rest : List Char}
    (hk : ∀ c ∈ keyword, IsOrdinary c) (he : keyword = c :: rest)
    (hp : ∀ c ∈ pad, isBlank c = true) {inner : List Char} (hi : Nested [] inner) :
    Standalone (keyword ++ pad ++ '\x7b' :: (inner ++ ['\x7d'])) := by
  have hpad : Nested [',', ';'] pad := by
    refine Nested.of_plain fun d hd => ⟨isPlain_of_isBlank (hp d hd), ?_⟩
    intro hm
    rcases List.mem_pair.1 hm with rfl | rfl <;> exact absurd (hp _ hd) (by decide)
  have hc : IsOrdinary c := hk c (by simp [he])
  have hne : c ≠ '(' := by
    rintro rfl
    exact hc.2 (by decide)
  have hlead : keyword ++ pad = c :: (rest ++ pad) := by rw [he, List.cons_append]
  have hnest : Nested [',', ';'] (keyword ++ pad) := (Nested.of_ordinary hk (by simp)).append hpad
  have hblock := (Ended.brackets .curly hi).standalone hnest hlead ⟨hc.1, hne⟩
  simpa [Bracket.opener, Bracket.closer] using hblock

/-- What the text of a shape needs to be nested: names of members, and slices after ellipses. -/
def MembersWellFormed : Shape TypeLiteral → Prop
  | .func s => s.WellFormed
  | .struct fs => ∀ f ∈ fs, isIdentifier f.name.toList = true
  | .interface ms => ∀ m ∈ ms, MethodWellFormed m
  | _ => True

theorem NodeWellFormed.members {s : Shape TypeLiteral} (h : NodeWellFormed spell (shape s)) :
    MembersWellFormed s := by
  cases s with
  | struct fs => exact fun f hf => (h f hf).1
  | func | interface => exact h
  | _ => trivial

theorem standalone_shape {s : Shape TypeLiteral} (hw : MembersWellFormed s)
    (ih : ∀ c ∈ s.children, Written spell c) : Standalone (write spell (shape s)) := by
  have hplain (c : Char) (hc : IsPlain c ∧ c ∉ [',', ';']) : Nested [',', ';'] [c] :=
    Nested.of_plain (by simpa using hc)
  cases s with
  | basic b => exact (write.eq_1 spell b).symm ▸ standalone_basic b
  | array n e =>
    have he : Standalone (e.write spell) := (ih e (List.mem_singleton_self _)).1
    have hlead : Nested [',', ';'] ('[' :: Nat.toDigits 10 n.toNat ++ [']']) :=
      Nested.brackets .square (Nested.of_ordinary (isOrdinary_toDigits _) (by simp))
    have := he.toEnded.standalone hlead rfl (by decide)
    simpa [write] using this
  | slice e =>
    have he : Standalone (e.write spell) := (ih e (List.mem_singleton_self _)).1
    have hlead : Nested [',', ';'] ['[', ']'] := Nested.brackets .square Nested.nil
    have := he.toEnded.standalone hlead rfl (by decide)
    simpa [write] using this
  | map k e =>
    have hk : Standalone (k.write spell) := (ih k (by simp [Shape.children])).1
    have he : Standalone (e.write spell) := (ih e (by simp [Shape.children])).1
    have hword : Nested [',', ';'] ['m', 'a', 'p'] := Nested.of_plain (by simp [IsPlain])
    have hlead := hword.append (Nested.brackets .square hk.nested.anywhere)
    have := he.toEnded.standalone hlead rfl (by decide)
    simpa [write, Bracket.opener, Bracket.closer] using this
  | chan d e =>
    have he : Standalone (e.write spell) := (ih e (List.mem_singleton_self _)).1
    rw [write]
    split
    · have := standalone_lead d (Ended.brackets .round he.nested.anywhere)
      simpa [Bracket.opener, Bracket.closer] using this
    · exact standalone_lead d he.toEnded
  | func s =>
    have hs := ended_writeSignature hw ih
    have hlead : Nested [',', ';'] ['f', 'u', 'n', 'c'] := Nested.of_plain (by simp [IsPlain])
    have := hs.standalone hlead rfl (by decide)
    simpa [write] using this
  | struct fs =>
    have hparts : ∀ t ∈ fs.map (writeField spell), Nested [';'] t := by
      intro t ht
      obtain ⟨f, hf, rfl⟩ := List.mem_map.1 ht
      exact (field_part (hw f hf) (ih f.type (List.mem_map_of_mem hf)).1).2
    have hword : ∀ c ∈ "struct".toList, IsOrdinary c := List.all_iff_forall_prop.1 (by decide)
    rw [write_struct]
    exact standalone_block hword rfl isBlank_space (nested_body hparts)
  | interface ms =>
    have hparts : ∀ t ∈ ms.map (writeMethod spell), Nested [';'] t := by
      intro t ht
      obtain ⟨m, hm, rfl⟩ := List.mem_map.1 ht
      exact (method_part (hw m hm) fun c hc => ih c (List.mem_flatMap.2 ⟨m, hm, hc⟩)).2
    have hword : ∀ c ∈ "interface".toList, IsOrdinary c :=
      List.all_iff_forall_prop.1 (by decide)
    rw [write_interface]
    exact standalone_block hword rfl isBlank_space (nested_body hparts)
  | pointer e =>
    have he : Standalone (e.write spell) := (ih e (List.mem_singleton_self _)).1
    have := he.toEnded.standalone (hplain '*' (by simp [IsPlain])) rfl (by decide)
    simpa [write] using this

theorem standalone_qualified {path name : String} {args : List TypeLiteral}
    (h : NameWellFormed spell path name args) : Standalone (qualified spell path name) := by
  obtain ⟨hne, hord⟩ := isOrdinary_qualified h
  exact Standalone.of_ordinary hne hord

theorem standalone_named {path name : String} {args : List TypeLiteral}
    (hbase : Standalone (qualified spell path name))
    (ha : ∀ a ∈ args, Standalone (a.write spell)) :
    Standalone (write spell (named path name args)) := by
  by_cases hne : args = []
  · rwa [hne, write_named_nil]
  · obtain ⟨c, tail, he, hc⟩ := hbase.first
    rw [write_named_args path name hne]
    exact (Ended.brackets .square (nested_args ha)).standalone hbase.nested he hc

/-- The text of a well-formed literal stands alone, and so do the texts of its components. -/
theorem written {t : TypeLiteral} (h : t.WellFormedAs spell) : Written spell t := by
  induction t with
  | shape s ih =>
    have hin : ∀ c ∈ s.children, Written spell c := by
      intro c hc
      exact ih c hc (h.inside c hc)
    exact ⟨standalone_shape h.here.members hin, fun c hc => (hin c hc).1⟩
  | named path name args ih =>
    have hin : ∀ c ∈ args, Written spell c := by
      intro c hc
      exact ih c hc (h.inside c hc)
    have hbase := standalone_qualified h.here
    exact ⟨standalone_named hbase fun c hc => (hin c hc).1, fun c hc => (hin c hc).1⟩

theorem word_basic (b : BasicType) : Nested [' '] (write spell (shape (.basic b))) := by
  rw [write]
  exact Nested.of_ordinary (isOrdinary_basic b) (by simp)

theorem word_named {path name : String} {args : List TypeLiteral}
    (h : NameWellFormed spell path name args) (ha : ∀ a ∈ args, Standalone (a.write spell)) :
    Nested [' '] (write spell (named path name args)) :=
  (nested_write_named h ha).mono (by simp)

/-- What may be embedded is written without a space outside of brackets. -/
theorem word_of_embeddable {t : TypeLiteral} (h : t.WellFormedAs spell) (he : t.Embeddable) :
    Nested [' '] (t.write spell) := by
  have hpointee (e : TypeLiteral) (hw : e.WellFormedAs spell)
      (he : (∃ path name args, e = named path name args) ∨ ∃ b, e = shape (.basic b)) :
      Nested [' '] (e.write spell) := by
    rcases he with ⟨path, name, args, rfl⟩ | ⟨b, rfl⟩
    · exact word_named hw.here fun a ha => (written (hw.inside a ha)).1
    · exact word_basic b
  by_cases hp : ∃ e, t = shape (.pointer e)
  · obtain ⟨e, rfl⟩ := hp
    have hin : Nested [' '] (e.write spell) :=
      hpointee e (h.inside e (List.mem_singleton_self _)) he.pointee
    rw [write]
    exact Nested.char (by simp [IsPlain]) (by simp) hin
  · have hself : t.pointee = t := by
      unfold pointee
      split
      · next e => exact absurd ⟨e, rfl⟩ hp
      · rfl
    have hpt := he.pointee
    rw [hself] at hpt
    exact hpointee t h hpt

/-- The text of an unnamed type begins with a letter, a bracket, a star or an arrow. -/
theorem first_shape (spell : String → String) (s : Shape TypeLiteral) :
    ∃ c rest, write spell (shape s) = c :: rest ∧ (c.isAlpha = true ∨ c ∈ ['[', '*', '<']) := by
  cases s with
  | basic b =>
    have hall : ∀ b ∈ BasicType.all, (b.name.toList.head?.any Char.isAlpha) = true := by decide
    have hb := hall b (BasicType.mem_all b)
    obtain ⟨c, hc, ha⟩ := (Option.any_eq_true _ _).1 hb
    obtain ⟨rest, hr⟩ := List.head?_eq_some_iff.1 hc
    exact ⟨c, rest, by rw [write, hr], .inl ha⟩
  | array => exact ⟨'[', _, by rw [write]; rfl, by decide⟩
  | slice => exact ⟨'[', _, by rw [write], by decide⟩
  | map => exact ⟨'m', _, by rw [write]; rfl, by decide⟩
  | func => exact ⟨'f', _, by rw [write]; rfl, by decide⟩
  | pointer => exact ⟨'*', _, by rw [write], by decide⟩
  | chan d e =>
    have hlead : ∃ c rest, d.lead.toList = c :: rest ∧ (c.isAlpha = true ∨ c ∈ ['[', '*', '<']) := by
      cases d with
      | send | both => exact ⟨'c', _, rfl, by decide⟩
      | recv => exact ⟨'<', _, rfl, by decide⟩
    obtain ⟨c, rest, hl, hc⟩ := hlead
    rw [write]
    split
    · exact ⟨c, _, by rw [hl]; rfl, hc⟩
    · exact ⟨c, _, by rw [hl]; rfl, hc⟩
  | struct => exact ⟨'s', _, by rw [write_struct]; rfl, by decide⟩
  | interface => exact ⟨'i', _, by rw [write_interface]; rfl, by decide⟩

theorem head?_ne_of_first {text : List Char}
    (h : ∃ c rest, text = c :: rest ∧ (c.isAlpha = true ∨ c ∈ ['[', '*', '<'])) :
    text.head? ≠ some '=' := by
  obtain ⟨c, rest, rfl, hc⟩ := h
  rintro ⟨⟩
  exact absurd hc (by decide)

theorem head?_shape_ne (spell : String → String) (s : Shape TypeLiteral) :
    (write spell (shape s)).head? ≠ some '=' := head?_ne_of_first (first_shape spell s)

/-- A type is one word, or it does not begin with an equals sign. -/
theorem word_or_head?_ne {t : TypeLiteral} (h : t.WellFormedAs spell) :
    Nested [' '] (t.write spell) ∨ (t.write spell).head? ≠ some '=' := by
  cases t with
  | named path name args =>
    exact .inl (word_named h.here fun a ha => (written (h.inside a ha)).1)
  | shape s => exact .inr (head?_shape_ne spell s)

end TypeIdentity.TypeLiteral
