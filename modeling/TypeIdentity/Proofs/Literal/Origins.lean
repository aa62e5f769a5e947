import TypeIdentity.Proofs.Guarantee
import TypeIdentity.Proofs.Literal.Transparency

/-! # Where parsed literals come from

A literal that was parsed is made of literals that were parsed, each from a text of its own, and its
names have passed the checks of the parser.  The text of a name begins with its package path and its
declared name, whatever stands in the brackets after them.
-/
namespace TypeIdentity
open Text Scan

namespace Reading
variable {n : Nat} {α β : Type} {R : List Char → TypeLiteral → Prop}

/-- What a reading results in has a property, whatever the texts that it asks for are read as. -/
def Ensures (R : List Char → TypeLiteral → Prop) (post : α → Prop) : Reading n α → Prop
  | done a => post a
  | fail _ => True
  | parse text _ next => ∀ t, R text t → (next t).Ensures R post
  | decodePath token next => (next token).Ensures R post
  | share lit next => (next lit).Ensures R post

/-- Readings in which paths are not decoded and nothing is shared. -/
def ensuring (R : List Char → TypeLiteral → Prop) : Guarantee (Reading n) where
  ensures x post := x.Ensures R post
  pure h := h
  bind {_ _ x _ _ _} hx hf := by
    induction x with
    | done a => exact hf a hx
    | fail e => trivial
    | parse text h next ih => exact fun t ht => ih t (hx t ht)
    | decodePath token next ih => exact ih token hx
    | share lit next ih => exact ih lit hx

theorem Ensures.of_run {post : α → Prop} {parseText : (text : List Char) → text.length < n →
    Except Error TypeLiteral} {x : Reading n α} {a : α} (hx : x.Ensures R post)
    (hR : ∀ text h t, parseText text h = .ok t → R text t)
    (hr : x.run parseText .ok .ok = .ok a) : post a := by
  induction x with
  | done b => exact Except.ok.inj hr ▸ hx
  | fail e => cases hr
  | parse text h next ih =>
    cases hp : parseText text h with
    | error e =>
      rw [run, hp] at hr
      cases hr
    | ok t =>
      rw [run, hp] at hr
      exact ih t (hx t (hR text h t hp)) hr
  | decodePath token next ih => exact ih token hx hr
  | share lit next ih => exact ih lit hx hr

end Reading

namespace Literal
open Reading TypeLiteral

/-- Read without tables, blanks around the text left out. -/
def ParsedFrom (text : List Char) (t : TypeLiteral) : Prop := parseWith .plain text = .ok t

/-- Parsed from some text. -/
def Parsed (t : TypeLiteral) : Prop := ∃ text, ParsedFrom text t

/-- Parsed from a text that does not begin with an ellipsis. -/
def ParsedBare (t : TypeLiteral) : Prop :=
  ∃ text, ParsedFrom text t ∧ trim text = text ∧ after? "..." text = none

/-- The types of a signature were parsed, all but a variadic last one as they are. -/
structure SignatureParsed (s : Signature TypeLiteral) : Prop where
  wellFormed : s.WellFormed
  types : ∀ c ∈ s.types, Parsed c
  plain : ∀ c ∈ s.plainIns, ParsedBare c

/-- A declared type was parsed from a text that is not an equals sign and one more word. -/
structure FieldParsed (f : Field TypeLiteral) : Prop where
  name : isIdentifier f.name.toList = true
  type : Parsed f.type
  declared : f.embedded = false → ∃ text words, ParsedFrom text f.type ∧ trim text = text ∧
    splitParts .space text = .ok words ∧ ∀ type, words ≠ [['='], type]

/-- What the parser has checked of the members of a type. -/
def MembersParsed : Shape TypeLiteral → Prop
  | .func s => SignatureParsed s
  | .struct fs => ∀ f ∈ fs, FieldParsed f
  | .interface ms => ∀ m ∈ ms, isIdentifier m.name.toList = true ∧ SignatureParsed m.signature
  | _ => True

/-- A qualified name was read from a text that begins with it. -/
structure NameParsed (id : List Char) (path name : String) (args : List TypeLiteral) : Prop where
  head : Head.of id = .name
  path_ne : path ≠ ""
  name_ident : isIdentifier name.toList = true
  pointer : ¬(path = "unsafe" ∧ name = "Pointer" ∧ args = [])
  base : ∃ base, splitLastPoint base = some (path.toList, name.toList) ∧
    (args = [] ∧ base = id ∧ firstSpan .square id = .ok none ∨
      args ≠ [] ∧ ∃ inner, firstSpan .square id = .ok (some ⟨base, inner, []⟩))

/-- What is known of a literal that was read from a text. -/
def NodeParsed (id : List Char) : TypeLiteral → Prop
  | shape s => MembersParsed s
  | named path name args => path = "" ∧ name = "error" ∧ args = [] ∨ NameParsed id path name args

variable {n : Nat}

/-! ## Steps of readings -/

abbrev reading : Guarantee (Reading n) := Reading.ensuring ParsedFrom

theorem reading_sub (text : List Char) (h : text.length < n) :
    reading.ensures (sub text h : Reading n TypeLiteral) (ParsedFrom text) := fun _ ht => ht

theorem reading_lift {α : Type} (x : Except Error α) :
    reading.ensures (lift x : Reading n {a // x = .ok a}) fun _ => True := by
  cases x <;> trivial

theorem reading_malformed {α : Type} {post : α → Prop} (id : List Char) (flaw : Flaw) :
    reading.ensures (malformed id flaw : Reading n α) post := trivial

theorem reading_span (kind : Bracket) (text : List Char) :
    reading.ensures (span kind text : Reading n _) fun _ => True :=
  reading.bind (reading_lift _) fun _ _ => reading.pure trivial

theorem reading_parts (sep : Separator) (text : List Char) (h : text.length < n) :
    reading.ensures (parts sep text h) fun ps => ∀ p ∈ ps, trim p.1 = p.1 := by
  refine reading.bind (reading_lift _) fun ps _ => reading.pure ?_
  intro p hp
  exact trim_of_mem_splitParts ps.2 ((List.mem_attachWith _ _).1 hp)

theorem reading_subs (texts : List (Below n)) :
    reading.ensures (subs texts) fun ts => ∀ t ∈ ts, Parsed t := by
  refine reading.imp (reading.mapM_pairs fun p _ => reading_sub p.1 p.2) ?_
  rintro _ ⟨zs, -, rfl, hz⟩ t ht
  obtain ⟨z, hm, rfl⟩ := List.mem_map.1 ht
  exact ⟨z.1.1, hz z hm⟩

/-! ## Types with elements -/

theorem reading_sequence (id : List Char) :
    reading.ensures (readSequence id) fun t =>
      (∀ c ∈ t.children, Parsed c) ∧ NodeParsed id t := by
  refine reading.bind (reading_span _ _) fun b _ => ?_
  dsimp only
  split
  · exact reading_malformed ..
  refine reading.bind (reading_sub _ _) fun e he => ?_
  have helem : ∀ c ∈ [e], Parsed c := by
    intro c hc
    exact ⟨_, List.mem_singleton.1 hc ▸ he⟩
  split
  · exact reading.pure ⟨helem, trivial⟩
  · split
    · exact reading.pure ⟨helem, trivial⟩
    · exact reading_malformed ..

theorem reading_map (id : List Char) (rest : Within n) :
    reading.ensures (readMap id rest) fun t =>
      (∀ c ∈ t.children, Parsed c) ∧ NodeParsed id t := by
  refine reading.bind (reading_span _ _) fun b _ => ?_
  dsimp only
  split
  · exact reading_malformed ..
  refine reading.bind (reading_sub _ _) fun k hk => ?_
  refine reading.bind (reading_sub _ _) fun e he => ?_
  refine reading.pure ⟨?_, trivial⟩
  intro c hc
  rcases List.mem_pair.1 hc with rfl | rfl
  · exact ⟨_, hk⟩
  · exact ⟨_, he⟩

theorem reading_chan (id : List Char) (dir : Direction) (elem : Below n) :
    reading.ensures (readChan id dir elem) fun t =>
      (∀ c ∈ t.children, Parsed c) ∧ NodeParsed id t := by
  have helem (text : List Char) (h : text.length < n) :
      reading.ensures (do return shape (.chan dir (← sub text h)) : Reading n TypeLiteral) fun t =>
        (∀ c ∈ t.children, Parsed c) ∧ NodeParsed id t := by
    refine reading.bind (reading_sub text h) fun e he => reading.pure ⟨?_, trivial⟩
    intro c hc
    exact ⟨text, List.mem_singleton.1 hc ▸ he⟩
  rw [readChan]
  dsimp only
  split
  · refine reading.bind (reading_span _ _) fun b _ => ?_
    split
    · exact reading_malformed ..
    · exact helem _ _
  · exact helem _ _

/-! ## Signatures -/

theorem parsedFrom_of_run {text : List Char} {t : TypeLiteral} (ht : Trimmed text)
    (h : (level text).run (fun part _ => parseWith .plain part) .ok .ok = .ok t) :
    ParsedFrom text t := by
  have htrim := trim_of_trimmed ht
  rwa [ParsedFrom, parseWith_plain (by rw [htrim]; exact ht.ne_nil), htrim]

theorem run_of_yields {allowed : String → Prop} {x : Reading n TypeLiteral} {t : TypeLiteral}
    (hy : Yields id allowed ParsedFrom x t) :
    x.run (fun part _ => parseWith .plain part) .ok .ok = .ok t := by
  have hfaithful : Faithful .except .plain id allowed ParsedFrom := faithful_plain
  have hparse (part : List Char) (c : TypeLiteral) (_ : part.length < n) (h : ParsedFrom part c) :
      Outcome.except.returns (parseWith .plain part) c := h
  exact returns_run .except hparse (fun _ _ => hfaithful.decodePath) (fun _ _ => hfaithful.share) hy

/-- A level is parsed when the texts in it are. -/
theorem parsedFrom_of_yields {allowed : String → Prop} {text : List Char} {t : TypeLiteral}
    (ht : Trimmed text) (hy : Yields id allowed ParsedFrom (level text) t) : ParsedFrom text t :=
  parsedFrom_of_run ht (run_of_yields hy)

theorem ParsedFrom.visible {text : List Char} {t : TypeLiteral} (h : ParsedFrom text t) :
    trim text ≠ [] := by
  intro hb
  rw [ParsedFrom, parseWith_blank _ hb] at h
  cases h

/-- Blanks around a text do not matter. -/
theorem ParsedFrom.trim {text : List Char} {t : TypeLiteral} (h : ParsedFrom text t) :
    ParsedFrom (trim text) t := by
  have hp := parse_trim h.visible
  rw [parse, String.toList_ofList] at hp
  exact hp.trans h

/-- An ellipsis stands for brackets, so that the slice has a text from which it is read. -/
theorem parsed_slice {e : TypeLiteral} (h : Parsed e) : Parsed (shape (.slice e)) := by
  obtain ⟨text, ht⟩ := h
  have htrimmed := trimmed_trim ht.visible
  have hlist : Trimmed ('[' :: ']' :: Text.trim text) := by
    obtain ⟨init, c, hl, hc⟩ := htrimmed.last
    exact ⟨⟨'[', _, rfl, by decide⟩, ⟨'[' :: ']' :: init, c, by rw [hl]; rfl, hc⟩⟩
  have hy : Yields id (fun _ => True) ParsedFrom (level ('[' :: ']' :: Text.trim text))
      (shape (.slice e)) := by
    rw [level, Head.of_sequence rfl]
    exact yields_slice_text htrimmed ht.trim
  exact ⟨_, parsedFrom_of_yields hlist hy⟩

theorem reading_lastParam (p : Below n) (hp : trim p.1 = p.1) :
    reading.ensures (readLastParam p) fun r => Parsed r.1 ∧
      (r.2 = true → ∃ e, r.1 = shape (.slice e)) ∧
      (r.2 = false → ParsedBare r.1) := by
  unfold readLastParam
  split
  · next hnone =>
    refine reading.bind (reading_sub _ _) fun t ht => reading.pure ?_
    exact ⟨⟨_, ht⟩, Bool.noConfusion, fun _ => ⟨p.1, ht, hp, hnone⟩⟩
  · refine reading.bind (reading_sub _ _) fun e he => ?_
    have hshare : reading.ensures (share (shape (.slice e)) done : Reading n TypeLiteral)
        (· = shape (.slice e)) := rfl
    refine reading.bind hshare fun t ht => reading.pure ?_
    exact ⟨ht ▸ parsed_slice ⟨_, he⟩, fun _ => ⟨e, ht⟩, Bool.noConfusion⟩

theorem ParsedBare.parsed {t : TypeLiteral} (h : ParsedBare t) : Parsed t := by
  obtain ⟨text, ht, -⟩ := h
  exact ⟨text, ht⟩

theorem signatureParsed_concat {before : List TypeLiteral} {last : TypeLiteral} {variadic : Bool}
    (hb : ∀ t ∈ before, ParsedBare t) (hl : Parsed last)
    (hslice : variadic = true → ∃ e, last = shape (.slice e))
    (hplain : variadic = false → ParsedBare last) :
    SignatureParsed ⟨before ++ [last], [], variadic⟩ where
  wellFormed hv := by
    obtain ⟨e, rfl⟩ := hslice hv
    exact ⟨shape (.slice e), by simp, rfl⟩
  types c hc := by
    simp only [Signature.types, List.append_nil, List.mem_append, List.mem_singleton] at hc
    rcases hc with hc | rfl
    · exact (hb c hc).parsed
    · exact hl
  plain c hc := by
    cases variadic with
    | true =>
      have hm : c ∈ before := by simpa [Signature.plainIns] using hc
      exact hb c hm
    | false =>
      have hm : c ∈ before ∨ c = last := by simpa [Signature.plainIns] using hc
      rcases hm with hm | rfl
      · exact hb c hm
      · exact hplain rfl

theorem reading_params (id : List Char) (ps : List (Below n)) (hp : ∀ p ∈ ps, trim p.1 = p.1) :
    reading.ensures (readParams id ps) fun r => SignatureParsed ⟨r.1, [], r.2⟩ := by
  have hparam : ∀ p ∈ ps.dropLast, reading.ensures (readParam id p) fun t =>
      ParsedFrom p.1 t ∧ trim p.1 = p.1 ∧ after? "..." p.1 = none := by
    intro p hm
    have htrim := hp p (List.dropLast_subset ps hm)
    rw [readParam]
    split
    · exact reading_malformed ..
    · next hnone =>
      exact reading.imp (reading_sub _ _) fun t ht => ⟨ht, htrim, by simpa using hnone⟩
  have hbefore : reading.ensures (ps.dropLast.mapM (readParam id)) fun ts =>
      ∀ t ∈ ts, ParsedBare t := by
    refine reading.imp (reading.mapM_pairs hparam) ?_
    rintro _ ⟨zs, -, rfl, hz⟩ t ht
    obtain ⟨z, hm, rfl⟩ := List.mem_map.1 ht
    exact ⟨z.1.1, hz z hm⟩
  refine reading.bind hbefore fun before hb => ?_
  cases hl : ps.getLast? with
  | none =>
    exact reading.pure ⟨Bool.noConfusion, List.forall_mem_nil _, List.forall_mem_nil _⟩
  | some p =>
    have htrim := hp p (List.mem_of_getLast? hl)
    refine reading.bind (reading_lastParam p htrim) fun r hr => ?_
    obtain ⟨hlast, hslice, hplain⟩ := hr
    exact reading.pure (signatureParsed_concat hb hlast hslice hplain)

theorem reading_results (id text : List Char) (h : text.length < n) :
    reading.ensures (readResults id text h) fun outs => ∀ t ∈ outs, Parsed t := by
  rw [readResults]
  split
  · refine reading.bind (reading_span _ _) fun b _ => ?_
    dsimp only
    split
    · exact reading_malformed ..
    · exact reading.bind (reading_parts ..) fun ps _ => reading_subs ps
  split
  · exact reading.pure (List.forall_mem_nil _)
  · refine reading.bind (reading_sub _ _) fun t ht => reading.pure fun u hu => ?_
    exact ⟨text, List.mem_singleton.1 hu ▸ ht⟩

theorem reading_signature (id : List Char) (sig : Within n) :
    reading.ensures (readSignature id sig) SignatureParsed := by
  refine reading.bind (reading_span _ _) fun b _ => ?_
  dsimp only
  split
  · exact reading_malformed ..
  refine reading.bind (reading_parts ..) fun ps hps => ?_
  refine reading.bind (reading_params id ps hps) fun r hr => ?_
  refine reading.bind (reading_results ..) fun outs houts => reading.pure ?_
  refine ⟨hr.wellFormed, fun c hc => ?_, hr.plain⟩
  rcases List.mem_append.1 hc with hc | hc
  · exact hr.types c (List.mem_append_left _ hc)
  · exact houts c hc

/-! ## Fields and methods -/

theorem reading_field (id : List Char) (entry : Below n) :
    reading.ensures (readField id entry) FieldParsed := by
  refine reading.bind (reading_lift _) fun e _ => ?_
  refine reading.bind (reading_sub _ _) fun t ht => ?_
  have hnamed (name : List Char) : reading.ensures
      (if isIdentifier name then
          return ⟨String.ofList name, t, String.ofList e.1.tag, e.1.embedded⟩
        else malformed id (.fieldName (String.ofList name)) : Reading n (Field TypeLiteral))
      FieldParsed := by
    split
    · next hname =>
      refine reading.pure ⟨by rwa [String.toList_ofList], ⟨_, ht⟩, fun hdeclared => ?_⟩
      obtain ⟨htrim, words, hwords, hequals⟩ := words_of_fieldEntry e.2 hdeclared
      exact ⟨_, words, ht, htrim, hwords, hequals⟩
    · exact reading_malformed ..
  exact hnamed _

theorem reading_method (entry : Below n) :
    reading.ensures (readMethod entry) fun m =>
      isIdentifier m.name.toList = true ∧ SignatureParsed m.signature := by
  rw [readMethod]
  dsimp only
  split
  · trivial
  · next hname =>
    refine reading.bind (reading_signature _ _) fun s hs => reading.pure ⟨?_, hs⟩
    rw [String.toList_ofList]
    simpa using (not_or.1 hname).2

theorem reading_insideBlock (id : List Char) (keyword : String) (block : Within n) :
    reading.ensures (insideBlock id keyword block) fun _ => True := by
  refine reading.bind (reading_span _ _) fun b _ => ?_
  dsimp only
  split
  · exact reading_malformed ..
  · exact reading.pure trivial

theorem reading_struct (id : List Char) (block : Within id.length) :
    reading.ensures (do
      let body ← insideBlock id "struct" block
      return shape (.struct (← (← parts .semicolon body.1 body.2).mapM (readField id))) :
        Reading id.length TypeLiteral) fun t => (∀ c ∈ t.children, Parsed c) ∧ NodeParsed id t := by
  refine reading.bind (reading_insideBlock ..) fun body _ => ?_
  refine reading.bind (reading_parts ..) fun ps _ => ?_
  refine reading.bind (reading.mapM_pairs fun p _ => reading_field id p) fun fs hfs => ?_
  obtain ⟨zs, -, rfl, hz⟩ := hfs
  have hfield : ∀ f ∈ zs.map Prod.snd, FieldParsed f := by
    intro f hf
    obtain ⟨z, hm, rfl⟩ := List.mem_map.1 hf
    exact hz z hm
  refine reading.pure ⟨?_, hfield⟩
  intro c hc
  obtain ⟨f, hf, rfl⟩ := List.mem_map.1 hc
  exact (hfield f hf).type

theorem reading_interface (id : List Char) (block : Within id.length) :
    reading.ensures (do
      let body ← insideBlock id "interface" block
      return shape (.interface (← (← parts .semicolon body.1 body.2).mapM readMethod)) :
        Reading id.length TypeLiteral) fun t => (∀ c ∈ t.children, Parsed c) ∧ NodeParsed id t := by
  refine reading.bind (reading_insideBlock ..) fun body _ => ?_
  refine reading.bind (reading_parts ..) fun ps _ => ?_
  refine reading.bind (reading.mapM_pairs fun p _ => reading_method p) fun ms hms => ?_
  obtain ⟨zs, -, rfl, hz⟩ := hms
  have hmethod : ∀ m ∈ zs.map Prod.snd,
      isIdentifier m.name.toList = true ∧ SignatureParsed m.signature := by
    intro m hm
    obtain ⟨z, hz', rfl⟩ := List.mem_map.1 hm
    exact hz z hz'
  refine reading.pure ⟨?_, hmethod⟩
  intro c hc
  obtain ⟨m, hm, hc⟩ := List.mem_flatMap.1 hc
  exact (hmethod m hm).2.types c hc

/-! ## Names -/

theorem reading_ident (id : List Char) :
    reading.ensures (readIdent id : Reading n TypeLiteral) fun t =>
      (∀ c ∈ t.children, Parsed c) ∧ NodeParsed id t := by
  have hbasic (b : BasicType) : (∀ c ∈ (shape (.basic b)).children, Parsed c) ∧
      NodeParsed id (shape (.basic b)) := ⟨List.forall_mem_nil _, trivial⟩
  have herror : (∀ c ∈ error.children, Parsed c) ∧ NodeParsed id error :=
    ⟨List.forall_mem_nil _, .inl ⟨rfl, rfl, rfl⟩⟩
  have hany : (∀ c ∈ any.children, Parsed c) ∧ NodeParsed id any :=
    ⟨List.forall_mem_nil _, List.forall_mem_nil _⟩
  rw [readIdent]
  split
  · exact hbasic _
  split
  · exact herror
  split
  · exact hany
  repeat' split
  all_goals trivial

theorem reading_typeArgs (id : List Char) :
    reading.ensures (splitTypeArgs id) fun r =>
      r.2 = none ∧ r.1 = id ∧ firstSpan .square id = .ok none ∨
        ∃ inner, r.2 = some inner ∧ firstSpan .square id = .ok (some ⟨r.1, inner.1, []⟩) := by
  refine reading.bind (reading_lift _) fun b _ => ?_
  obtain ⟨_ | b, hb⟩ := b
  · exact reading.pure (.inl ⟨rfl, rfl, hb⟩)
  · dsimp only
    split
    · exact reading_malformed ..
    · next hafter =>
      obtain ⟨before, inner, after⟩ := b
      obtain rfl : after = [] := by simpa using hafter
      exact reading.pure (.inr ⟨_, rfl, hb⟩)

theorem reading_name (id : List Char) (hhead : Head.of id = .name) :
    reading.ensures (readName id) fun t => (∀ c ∈ t.children, Parsed c) ∧ NodeParsed id t := by
  refine reading.bind (reading_typeArgs id) fun r hr => ?_
  obtain ⟨base, args⟩ := r
  simp only at hr ⊢
  split
  · split
    · exact reading_malformed ..
    · exact reading_ident id
  next path name hpoint =>
  split
  · exact reading_malformed ..
  next hchecked =>
  obtain ⟨hpath, hname⟩ : path ≠ [] ∧ isIdentifier name = true := by simpa using hchecked
  have hdecode : reading.ensures (decodePath (String.ofList path) done : Reading id.length String)
      (· = String.ofList path) := rfl
  refine reading.bind hdecode fun token htoken => ?_
  obtain rfl := htoken
  have hparsed (ts : List TypeLiteral)
      (hb : ts = [] ∧ base = id ∧ firstSpan .square id = .ok none ∨
        ts ≠ [] ∧ ∃ inner, firstSpan .square id = .ok (some ⟨base, inner, []⟩))
      (hpointer : ¬(String.ofList path = "unsafe" ∧ String.ofList name = "Pointer" ∧ ts = [])) :
      NameParsed id (String.ofList path) (String.ofList name) ts := by
    refine ⟨hhead, by simpa using hpath, by rwa [String.toList_ofList], hpointer, base, ?_, hb⟩
    rw [String.toList_ofList, String.toList_ofList, hpoint]
  rcases hr with ⟨rfl, hbase⟩ | ⟨inner, rfl, hspan⟩
  · simp only
    split
    · exact reading.pure ⟨List.forall_mem_nil _, trivial⟩
    · next hne =>
      refine reading.pure ⟨List.forall_mem_nil _, .inr (hparsed [] (.inl ⟨rfl, hbase⟩) ?_)⟩
      exact fun h => hne ⟨h.1, h.2.1⟩
  · refine reading.bind (reading_parts ..) fun ps _ => ?_
    refine reading.bind (reading_subs ps) fun ts hts => ?_
    cases ts with
    | nil => exact reading_malformed ..
    | cons t ts =>
      refine reading.pure ⟨hts, .inr (hparsed _ (.inr ⟨by simp, _, hspan⟩) ?_)⟩
      exact fun h => List.cons_ne_nil t ts h.2.2

theorem reading_level (id : List Char) :
    reading.ensures (level id) fun t => (∀ c ∈ t.children, Parsed c) ∧ NodeParsed id t := by
  rw [level]
  split
  · exact reading_sequence id
  · exact reading_map id _
  · exact reading_chan id _ _
  · refine reading.bind (reading_signature _ _) fun s hs => reading.pure ⟨hs.types, hs⟩
  · exact reading_struct id _
  · exact reading_interface id _
  · refine reading.bind (reading_sub _ _) fun e he => reading.pure ⟨fun c hc => ?_, trivial⟩
    exact ⟨_, List.mem_singleton.1 hc ▸ he⟩
  · next hhead => exact reading_name id hhead

/-- A literal that was parsed, and what is known of it. -/
theorem ParsedFrom.node {text : List Char} {t : TypeLiteral} (h : ParsedFrom text t) :
    (∀ c ∈ t.children, Parsed c) ∧ NodeParsed (Text.trim text) t := by
  have hread := (parseWith_plain h.visible).symm.trans h
  have hlevel : (level (Text.trim text)).Ensures ParsedFrom fun t =>
    (∀ c ∈ t.children, Parsed c) ∧ NodeParsed (Text.trim text) t := reading_level _
  exact hlevel.of_run (fun _ _ _ hp => hp) hread

end Literal
end TypeIdentity
