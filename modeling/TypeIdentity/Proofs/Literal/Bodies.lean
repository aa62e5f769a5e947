import TypeIdentity.Proofs.Literal.Entries
import TypeIdentity.Proofs.Literal.Signatures

/-! # Reading fields and methods back

The body of a struct or an interface is cut at its semicolons into the fields or the methods.
-/
namespace TypeIdentity.Literal
open Text Scan TypeLiteral Reading

variable {n : Nat} {spell : String → String} {allowed : String → Prop}
  {R : List Char → TypeLiteral → Prop}

/-- A field with its type replaced. -/
abbrev retype {α β : Type} (g : α → β) (f : Field α) : Field β :=
  ⟨f.name, g f.type, f.tag, f.embedded⟩

/-- The text of a field is taken apart into what it was put together from. -/
structure FieldComponents (spell : String → String) (f : Field (TypeLiteral × TypeLiteral)) :
    Prop where
  name : isIdentifier f.name.toList = true
  embedded : f.embedded = true → f.name = f.type.2.embeddedName
  entry : fieldEntry (writeField spell (retype Prod.fst f)) =
    .ok ⟨if f.embedded then none else some f.name.toList, f.type.1.write spell, f.tag.toList,
      f.embedded⟩

/-- An embedded type has to be one word; the words of a declared one may be anything but an equals
sign and a type. -/
theorem fieldComponents_of_words {f : Field (TypeLiteral × TypeLiteral)}
    (hname : isIdentifier f.name.toList = true) (hs : Standalone (f.type.1.write spell))
    (hembedded : f.embedded = true → f.name = f.type.2.embeddedName ∧
      splitParts .space (f.type.1.write spell) = .ok [f.type.1.write spell])
    (hdeclared : f.embedded = false →
      ∀ type, splitParts .space (f.type.1.write spell) ≠ .ok [['='], type]) :
    FieldComponents spell f where
  name := hname
  embedded h := (hembedded h).1
  entry := by
    rw [writeField_eq]
    cases he : f.embedded with
    | true =>
      have hentry := fieldEntry_type hs.nested hs.trimmed hs.getLast?_ne (hembedded he).2
        f.tag.toList
      simpa [he] using hentry
    | false =>
      have hunq := unqualified_eq (point_not_mem_of_isIdentifier hname)
      have hne : unqualified f.name.toList ≠ [] := by
        rw [hunq]
        exact ne_nil_of_isIdentifier hname
      have hentry := fieldEntry_named hne (isOrdinary_of_isIdentifier hname) hs.nested.anywhere
        hs.trimmed hs.getLast?_ne (hdeclared he) f.tag.toList
      simpa [he, hunq] using hentry

theorem fieldComponents {f : Field (TypeLiteral × TypeLiteral)}
    (hf : FieldWellFormed (retype Prod.snd f)) (ht : Reads spell R f.type.1 f.type.2) :
    FieldComponents spell f := by
  have hs := ht.standalone
  refine fieldComponents_of_words hf.1 hs (fun he => ?_) fun _ => ?_
  · obtain ⟨hembeddable, hname⟩ := hf.2 he
    exact ⟨hname, splitParts_word hs.trimmed (ht.word hembeddable)⟩
  · exact splitParts_ne_equals hs.trimmed ht.entry

/-- A field is read from an entry with its pieces; without a name it is called after its type. -/
theorem yields_entry {f : Field TypeLiteral} {text type : List Char} {name : Option (List Char)}
    (hf : isIdentifier f.name.toList = true)
    (hname : name = some f.name.toList ∨ name = none ∧ f.name = f.type.embeddedName)
    (hentry : fieldEntry text = .ok ⟨name, type, f.tag.toList, f.embedded⟩) (ht : R type f.type)
    (id : List Char) (h : text.length < n) :
    Yields spell allowed R (readField id (⟨text, h⟩ : Below n)) f := by
  rw [readField, lift_ok hentry, done_bind]
  apply (Yields.sub ht _).bind
  rcases hname with rfl | ⟨rfl, hown⟩
  · simp only []
    rw [if_pos hf, String.ofList_toList, String.ofList_toList]
    exact Yields.done _
  · simp only [← hown]
    rw [if_pos hf, String.ofList_toList, String.ofList_toList]
    exact Yields.done _

theorem yields_field {f : Field (TypeLiteral × TypeLiteral)} (hf : FieldComponents spell f)
    (ht : R (f.type.1.write spell) f.type.2)
    (id : List Char) (h : (writeField spell (retype Prod.fst f)).length < n) :
    Yields spell allowed R (readField id (⟨writeField spell (retype Prod.fst f), h⟩ : Below n))
      (retype Prod.snd f) := by
  refine yields_entry hf.name ?_ hf.entry ht id h
  cases he : f.embedded with
  | true => exact .inr ⟨if_pos rfl, hf.embedded he⟩
  | false => exact .inl (if_neg Bool.false_ne_true)

/-- A method with the types in its signature replaced. -/
abbrev resign {α β : Type} (g : α → β) (m : Method α) : Method β := ⟨m.name, m.signature.map g⟩

/-- A method is cut at the first parenthesis. -/
theorem yields_method_text {m : Method TypeLiteral} {text rest : List Char}
    (hm : isIdentifier m.name.toList = true) (htext : text = m.name.toList ++ '(' :: rest)
    (hs : ∀ hle, Yields spell allowed R (readSignature text (⟨'(' :: rest, hle⟩ : Within n))
      m.signature) (h : text.length < n) :
    Yields spell allowed R (readMethod (⟨text, h⟩ : Below n)) m := by
  have hround : ∀ c ∈ m.name.toList, decide (c ≠ '(') = true := by
    intro c hc
    have hord := isOrdinary_of_isIdentifier hm c hc
    apply decide_eq_true
    rintro rfl
    exact hord.2 (by decide)
  have hname : text.takeWhile (· ≠ '(') = m.name.toList := by
    rw [htext, List.takeWhile_append_of_pos hround]
    simp
  have hrest : text.dropWhile (· ≠ '(') = '(' :: rest := by
    rw [htext, List.dropWhile_append_of_pos hround]
    simp
  rw [readMethod]
  simp only [hname, hrest]
  rw [if_neg (by simp [hm]), String.ofList_toList]
  exact (hs _).bind (Yields.done _)

theorem yields_method {m : Method (TypeLiteral × TypeLiteral)}
    (hm : isIdentifier m.name.toList = true) (hs : SignatureComponents spell R m.signature)
    (h : (writeMethod spell (resign Prod.fst m)).length < n) :
    Yields spell allowed R (readMethod (⟨writeMethod spell (resign Prod.fst m), h⟩ : Below n))
      (resign Prod.snd m) := by
  obtain ⟨rest, hsig⟩ : ∃ rest, writeSignature spell (m.signature.map Prod.fst) = '(' :: rest :=
    ⟨_, by rw [Signature.map, writeSignature]; rfl⟩
  have htext : writeMethod spell (resign Prod.fst m) = m.name.toList ++ '(' :: rest := by
    rw [writeMethod, hsig]
  exact yields_method_text hm htext (fun _ => yields_signature hs _ hsig.symm) h

theorem splitParts_body {texts : List (List Char)}
    (h : ∀ t ∈ texts, Trimmed t ∧ Nested [';'] t) :
    splitParts .semicolon (body texts) = .ok texts := by
  have hspace : Padding .semicolon [' '] := padding_space (by decide)
  by_cases hne : texts = []
  · subst hne
    rfl
  · rw [body, if_neg hne]
    exact splitParts_joined (.intercalate hspace texts) hspace hspace h

theorem insideBlock_eq {inner : List Char} (hi : Nested [] inner) (id : List Char)
    (keyword : String) (hle : ('\x7b' :: (inner ++ ['\x7d'])).length ≤ n) :
    ∃ hlt, insideBlock id keyword (⟨'\x7b' :: (inner ++ ['\x7d']), hle⟩ : Within n) =
      .done ⟨inner, hlt⟩ := by
  obtain ⟨hb, hs⟩ := span_eq (n := n) (requireSpan_lead .curly hi [])
  refine ⟨by simp at hle; omega, ?_⟩
  rw [insideBlock]
  simp only [Bracket.opener, Bracket.closer] at hs
  rw [hs, done_bind]
  rfl

end TypeIdentity.Literal
