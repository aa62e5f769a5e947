import TypeIdentity.Proofs.Scan.Balance
import TypeIdentity.Proofs.Scan.Words

/-! # Splitting undoes joining

Parts that are joined with a separator, with any blanks around every part, are split into the same
parts.  A part may hold anything in quotes, and separators inside brackets.
-/
namespace TypeIdentity.Scan
open Text

variable {sep : Separator} {q : Quoting} {d : Depths} {part text : List Char}

/-- What may stand as a part between separators. -/
structure IsPart (sep : Separator) (text : List Char) : Prop where
  trimmed : Trimmed text
  quotes : QuotesClosed text
  balanced : ∀ kind : Bracket, Balanced kind (Quoting.plain.exposed text)
  covered : Covered sep (Quoting.plain.exposed text)

instance (sep : Separator) (text : List Char) : Decidable (IsPart sep text) :=
  decidable_of_iff
    (Trimmed text ∧ QuotesClosed text ∧
      (∀ kind, Balanced kind (Quoting.plain.exposed text)) ∧
      Covered sep (Quoting.plain.exposed text))
    ⟨fun h => ⟨h.1, h.2.1, h.2.2.1, h.2.2.2⟩, fun h => ⟨h.1, h.2, h.3, h.4⟩⟩

/-! ## Reading one part -/

/-- A text that returns to the top is read into the current part. -/
theorem splitFrom_returns (hq : q.Settled) (hb : '\\' ∉ q.exposed text)
    (hclosed : (q.run text).quoted = false) (h : Returns sep d (q.exposed text))
    (rest : List Char) :
    splitFrom sep q d part (text ++ rest) =
      splitFrom sep .plain .top (text.reverse ++ part) rest := by
  induction text generalizing q d part with
  | nil =>
    obtain rfl := hq.eq_plain hclosed
    obtain rfl := h.eq_top
    rfl
  | cons c text ih =>
    obtain ⟨hsettled, hrest⟩ := hq.step hb
    have hshape : (c :: text).reverse ++ part = text.reverse ++ (c :: part) := by simp
    cases hquoted : q.quoted with
    | true =>
      -- inside quotes the depths stay, and nothing is exposed
      have hskip : q.isStructural c = false := by simp [Quoting.isStructural, hquoted]
      rw [Quoting.exposed_cons_quoted hquoted] at h
      rw [List.cons_append, splitFrom, if_neg (by simp [hskip]), ih hsettled hrest hclosed h,
        hshape]
    | false =>
      rw [Quoting.exposed_cons_unquoted hquoted] at h hb
      obtain rfl := hq.eq_plain hquoted
      obtain ⟨e, he, hsep, hreturns⟩ := h.step
      rw [List.cons_append, hshape, ← ih hsettled hrest hclosed hreturns]
      by_cases hquote : c = '"'
      · subst hquote
        obtain rfl : d = e := Option.some.inj he
        rfl
      · have hc : c ≠ '\\' := fun hc => hb (hc ▸ List.mem_cons_self ..)
        have hstruct : Quoting.plain.isStructural c = true := by
          simp [Quoting.isStructural, Quoting.plain, hquote, hc]
        have hplain : Quoting.plain.step c = .plain := by
          simp [Quoting.step, Quoting.plain, hquote, hc]
        rw [splitFrom_keep hstruct he hsep, hplain]

theorem IsPart.splitFrom_append (h : IsPart sep text) (rest : List Char) :
    splitFrom sep .plain .top part (text ++ rest) =
      splitFrom sep .plain .top (text.reverse ++ part) rest :=
  splitFrom_returns Quoting.settled_plain h.quotes.backslash h.quotes.closed
    (.of_balanced h.balanced h.covered) rest

/-! ## Blanks -/

theorem eq_space_of_isBlank (h : isBlank sep.char = true) : sep = .space := by
  cases sep with
  | space => rfl
  | comma | semicolon => exact absurd h (by decide)

/-- Blanks before a part are dropped, be they separators or not. -/
theorem splitFrom_lead {pad : List Char} (hp : ∀ c ∈ pad, isBlank c = true) (text : List Char) :
    splitFrom sep .plain .top [] (pad ++ text) = splitFrom sep .plain .top [] text := by
  by_cases hs : sep = .space
  · subst hs
    exact splitFrom_space_pad hp text
  · have hpadding : Padding sep pad := by
      intro c hc
      refine ⟨hp c hc, ?_⟩
      rintro rfl
      exact hs (eq_space_of_isBlank (hp _ hc))
    rw [splitFrom_nested hpadding.nested (fun _ => List.mem_singleton_self _), List.append_nil]
    have hpad : ∀ c ∈ pad.reverse, isBlank c = true := fun c hc => hp c (List.mem_reverse.1 hc)
    have hdrop : splitFrom sep .plain .top ([] ++ pad.reverse) text =
        splitFrom sep .plain .top [] text := splitFrom_pad hpad
    exact hdrop

/-- What comes after a part: the end, or a separator and then the other parts. -/
inductive Follows (sep : Separator) : List (List Char) → List Char → Prop
  | done : Follows sep [] []
  | next {parts : List (List Char)} {text : List Char}
      (h : splitFrom sep .plain .top [] text = .ok parts) : Follows sep parts (sep.char :: text)

theorem Follows.splitFrom_space {parts : List (List Char)} (h : Follows .space parts text) :
    splitFrom .space .plain .top [] text = .ok parts := by
  cases h with
  | done => rfl
  | next h => exact (splitFrom_space_pad isBlank_space _).trans h

/-- Blanks after a part belong to it or separate it from nothing. -/
theorem splitFrom_trail {pad before blanks : List Char} {parts : List (List Char)}
    (hp : ∀ c ∈ pad, isBlank c = true) (hb : ∀ c ∈ blanks, isBlank c = true)
    (hbefore : Trimmed before) (h : Follows sep parts text) :
    splitFrom sep .plain .top (blanks.reverse ++ before.reverse) (pad ++ text) =
      .ok (before :: parts) := by
  have hclose : closePart sep (blanks.reverse ++ before.reverse).reverse = .ok [before] := by
    simpa using closePart_trimmed sep [] blanks (by simp) hb hbefore
  induction pad generalizing blanks with
  | nil =>
    cases h with
    | done => simpa [splitFrom, Quoting.plain] using hclose
    | next h =>
      rw [List.nil_append, splitFrom_cut, hclose, h]
      rfl
  | cons c pad ih =>
    have hc := hp c (List.mem_cons_self ..)
    have hpad : ∀ d ∈ pad, isBlank d = true := fun d hd => hp d (List.mem_cons_of_mem _ hd)
    by_cases hs : c = sep.char
    · subst hs
      obtain rfl := eq_space_of_isBlank hc
      rw [List.cons_append, splitFrom_cut, hclose, splitFrom_space_pad hpad, h.splitFrom_space]
      rfl
    · have hmore : ∀ d ∈ blanks ++ [c], isBlank d = true := by
        simpa [or_imp, forall_and] using ⟨hb, hc⟩
      have hkeep := ih hpad hmore (by
        simpa using closePart_trimmed sep [] (blanks ++ [c]) (by simp) hmore hbefore)
      rw [List.cons_append, splitFrom_plain (isPlain_of_isBlank hc) fun he => absurd he hs]
      simpa using hkeep

/-! ## Reading all parts -/

/-- A part with blanks around it. -/
inductive Padded (text : List Char) : List Char → Prop
  | mk (before after : List Char) (hb : ∀ c ∈ before, isBlank c = true)
      (ha : ∀ c ∈ after, isBlank c = true) : Padded text (before ++ text ++ after)

theorem splitFrom_padded {padded : List Char} {parts : List (List Char)} (ht : IsPart sep text)
    (hpad : Padded text padded) {rest : List Char} (h : Follows sep parts rest) :
    splitFrom sep .plain .top [] (padded ++ rest) = .ok (text :: parts) := by
  obtain ⟨before, after, hb, ha⟩ := hpad
  rw [List.append_assoc, List.append_assoc, splitFrom_lead hb, ht.splitFrom_append,
    List.append_nil]
  have hnone : ∀ c ∈ ([] : List Char), isBlank c = true := by simp
  exact splitFrom_trail ha hnone ht.trimmed h

/-- A part by itself is the only one. -/
theorem IsPart.splitParts (h : IsPart sep text) : splitParts sep text = .ok [text] := by
  have hnone : ∀ c ∈ ([] : List Char), isBlank c = true := by simp
  have hpadded := splitFrom_padded h (.mk [] [] hnone hnone) .done
  rw [List.nil_append, List.append_nil, List.append_nil] at hpadded
  exact (splitParts_eq_ok_iff h.trimmed).2 hpadded

theorem splitFrom_intercalate {part : List Char} {parts padded : List (List Char)}
    (hparts : ∀ p ∈ part :: parts, IsPart sep p)
    (hpad : List.Forall₂ Padded (part :: parts) padded) :
    splitFrom sep .plain .top [] (List.intercalate [sep.char] padded) = .ok (part :: parts) := by
  induction parts generalizing part padded with
  | nil =>
    obtain _ | ⟨hfirst, _ | _⟩ := hpad
    have hpart : IsPart sep part := hparts part (List.mem_singleton_self part)
    simpa using splitFrom_padded hpart hfirst .done
  | cons next parts ih =>
    obtain _ | ⟨hfirst, hpad⟩ := hpad
    have hpart : IsPart sep part := hparts part (List.mem_cons_self ..)
    have hnext := ih (fun p hp => hparts p (List.mem_cons_of_mem _ hp)) hpad
    obtain _ | ⟨hsecond, hpad⟩ := hpad
    rw [List.intercalate_cons_cons, List.append_assoc]
    exact splitFrom_padded hpart hfirst (.next hnext)

theorem splitPartsBy_char (sep : Separator) (id : List Char) :
    splitPartsBy sep.char id = splitParts sep id := by
  cases sep <;> rfl

/-- Joined parts are split into the parts that were joined. -/
theorem splitPartsBy_intercalate {parts padded : List (List Char)}
    (hparts : ∀ p ∈ parts, IsPart sep p) (hpad : List.Forall₂ Padded parts padded) :
    splitPartsBy sep.char (List.intercalate [sep.char] padded) = .ok parts := by
  rw [splitPartsBy_char, splitParts]
  cases hpad with
  | nil => rfl
  | @cons part first parts padded hfirst hpad =>
    have hsplit := splitFrom_intercalate hparts (.cons hfirst hpad)
    split
    · next hblank =>
      -- a blank text has no part, or one that is refused
      have hnone := @splitFrom_lead sep _ (List.all_eq_true.1 hblank) []
      rw [List.append_nil, hsplit] at hnone
      cases sep with
      | comma | semicolon | space => cases hnone
    · rw [hsplit]

/-- Brackets that cross, a quoted separator, an escaped quote, and blanks of several kinds. -/
theorem splitPartsBy_intercalate_crossed :
    splitPartsBy ',' "  ([,)] ,f(\"a,\\\"(\") x\t,é\u2003".toList =
      .ok ["([,)]".toList, "f(\"a,\\\"(\") x".toList, "é".toList] := by
  have hparts : ∀ p ∈ ["([,)]".toList, "f(\"a,\\\"(\") x".toList, "é".toList],
      IsPart .comma p := by decide
  have hpad : List.Forall₂ Padded ["([,)]".toList, "f(\"a,\\\"(\") x".toList, "é".toList]
      ["  ([,)] ".toList, "f(\"a,\\\"(\") x\t".toList, "é\u2003".toList] :=
    .cons (.mk "  ".toList " ".toList (List.all_eq_true.1 rfl) (List.all_eq_true.1 rfl))
      (.cons (.mk [] "\t".toList (List.all_eq_true.1 rfl) (List.all_eq_true.1 rfl))
        (.cons (.mk [] "\u2003".toList (List.all_eq_true.1 rfl) (List.all_eq_true.1 rfl)) .nil))
  exact splitPartsBy_intercalate hparts hpad

end TypeIdentity.Scan
