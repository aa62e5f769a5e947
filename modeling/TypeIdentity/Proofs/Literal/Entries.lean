import TypeIdentity.Literal.FieldEntry
import TypeIdentity.Proofs.Scan.Words

/-! # Reading field entries back

The tag of an entry is the quoted string that it ends with, and a name is what stands before its
first space.  An entry written from these pieces is read as these pieces again.
-/
namespace TypeIdentity.Literal
open Text Scan

namespace TagScan

theorem run_append (index : Nat) (s : TagScan) (u v : List Char) :
    s.run index (u ++ v) = (s.run index u).run (index + u.length) v := by
  induction u generalizing index s with
  | nil => rfl
  | cons c u ih => simp [run, ih, Nat.add_assoc, Nat.add_comm 1]

theorem run_inside {text : List Char} (h : ∀ c ∈ text, c ≠ '"' ∧ c ≠ '\\') (index start : Nat) :
    (inside start false).run index text = inside start false := by
  induction text generalizing index with
  | nil => rfl
  | cons c text ih =>
    obtain ⟨hq, hb⟩ := h c (List.mem_cons_self ..)
    have hr := ih (fun d hd => h d (List.mem_cons_of_mem _ hd)) (index + 1)
    simpa [run, step, hq, hb] using hr

theorem run_quoteChar (c : Char) (index start : Nat) :
    (inside start false).run index (quoteChar c) = inside start false := by
  rcases quoteChar_form c with ⟨he, hq, hb⟩ | ⟨letter, ds, he, hd⟩
  · rw [he]
    exact run_inside (by simpa using ⟨hq, hb⟩) index start
  · rw [he]
    exact run_inside hd (index + 1 + 1) start

theorem run_quoted (text : List Char) (index start : Nat) :
    (inside start false).run index (text.flatMap quoteChar) = inside start false := by
  induction text generalizing index with
  | nil => rfl
  | cons c text ih => rw [List.flatMap_cons, run_append, run_quoteChar, ih]

theorem run_quote (text : List Char) (index : Nat) : outside.run index (quote text) = outside := by
  have hopen : outside.step index '"' = inside index false := rfl
  rw [quote, List.cons_append, run, hopen, run_append, run_quoted]
  rfl

theorem run_nested {stops text : List Char} (h : Nested stops text) (index : Nat) :
    outside.run index text = outside := by
  have hplain (c : Char) (hc : c ≠ '"') (i : Nat) (u : List Char) :
      outside.run i (c :: u) = outside.run (i + 1) u := by
    simp [run, step, hc]
  induction h generalizing index with
  | nil => rfl
  | @char _ rest c hc _ _ ih =>
    rw [hplain c (fun he => hc (by simp [he])), ih]
  | quoted s _ ih =>
    rw [run_append, run_quote, ih]
  | bracket kind _ _ ihi ihr =>
    have ho : kind.opener ≠ '"' := by cases kind <;> decide
    have hc : kind.closer ≠ '"' := by cases kind <;> decide
    rw [List.cons_append, hplain _ ho, run_append, ihi, hplain _ hc, ihr]

end TagScan

/-! ## Tags -/

/-- A tag as it stands at the end of an entry; the empty tag is not written. -/
def tagSuffix (tag : List Char) : List Char := if tag = [] then [] else ' ' :: quote tag

theorem tagStart?_none {text : List Char} (h : text.getLast? ≠ some '"') :
    tagStart? text = none := by
  unfold tagStart?
  split
  · rw [if_neg h]
  · rfl

/-- A quoted string at the end is found after any text that leaves no quote open. -/
theorem tagStart?_of_run {text : List Char} (h : TagScan.run 0 .outside text = .outside)
    (tag : List Char) : tagStart? (text ++ ' ' :: quote tag) = some (text.length + 1) := by
  have he : text ++ ' ' :: quote tag = text ++ ' ' :: '"' :: tag.flatMap quoteChar ++ ['"'] := by
    simp [quote]
  have hrun : TagScan.run 0 .outside (text ++ ' ' :: '"' :: tag.flatMap quoteChar) =
      .inside (text.length + 1) false := by
    rw [TagScan.run_append, h, Nat.zero_add]
    exact TagScan.run_quoted tag (text.length + 1 + 1) (text.length + 1)
  rw [he, tagStart?, List.dropLast_concat, hrun]
  exact if_pos List.getLast?_concat

/-- The tag is split off together with the space before it. -/
theorem splitTag_tagSuffix {text : List Char} (h : TagScan.run 0 .outside text = .outside)
    (ht : Trimmed text) (hlast : text.getLast? ≠ some '"') (tag : List Char) :
    splitTag (text ++ tagSuffix tag) = .ok (text, tag) := by
  by_cases htag : tag = []
  · rw [tagSuffix, if_pos htag, List.append_nil, splitTag, tagStart?_none hlast, htag]
  · have htrim : trimEnd (text ++ [' ']) = text := trimEnd_blank [' '] isBlank_space ht.last
    rw [tagSuffix, if_neg htag, splitTag, tagStart?_of_run h]
    simp only [List.append_cons text ' ' (quote tag)]
    have hlen : text.length + 1 = (text ++ [' ']).length := by simp
    rw [hlen, List.drop_left, List.take_left, unquote_quote, htrim]

theorem trimmed_tagSuffix {text : List Char} (ht : Trimmed text) (tag : List Char) :
    Trimmed (text ++ tagSuffix tag) := by
  by_cases htag : tag = []
  · rw [tagSuffix, if_pos htag, List.append_nil]
    exact ht
  · rw [tagSuffix, if_neg htag]
    obtain ⟨c, rest, rfl, hc⟩ := ht.first
    refine ⟨⟨c, rest ++ ' ' :: quote tag, rfl, hc⟩, ?_⟩
    exact ⟨c :: rest ++ ' ' :: '"' :: tag.flatMap quoteChar, '"', by simp [quote], by decide⟩

/-! ## Entries -/

theorem unqualified_eq {name : List Char} (h : '.' ∉ name) : unqualified name = name := by
  have hall : ∀ c ∈ name.reverse, decide (c ≠ '.') = true := by
    intro c hc
    simp only [ne_eq, decide_not, Bool.not_eq_true', decide_eq_false_iff_not]
    rintro rfl
    exact h (List.mem_reverse.1 hc)
  rw [unqualified, List.takeWhile_eq_self_iff.2 hall, List.reverse_reverse]

/-- What stands in an entry before its tag: its quotes are closed, and it has these words. -/
structure EntryText (text : List Char) (words : List (List Char)) : Prop where
  trimmed : Trimmed text
  quotes : ∀ index, TagScan.outside.run index text = .outside
  last : text.getLast? ≠ some '"'
  words : splitParts .space text = .ok words

namespace EntryText
variable {text : List Char} {words : List (List Char)}

theorem of_nested {stops : List Char} (h : Nested stops text) (ht : Trimmed text)
    (hlast : text.getLast? ≠ some '"') : ∃ words, EntryText text words := by
  obtain ⟨hrun, hbalanced⟩ := h.anywhere.balanced
  obtain ⟨words, hwords⟩ := exists_splitParts_space ht hrun hbalanced
  exact ⟨words, ht, TagScan.run_nested h, hlast, hwords⟩

/-- A word before it is the first of the words. -/
theorem named (h : EntryText text words) {word : List Char} (hne : word ≠ [])
    (hord : ∀ c ∈ word, IsOrdinary c) : EntryText (word ++ ' ' :: text) (word :: words) := by
  have hword : Trimmed word := trimmed_of_ordinary hne hord
  have hnest : Nested [' '] word := Nested.of_ordinary hord (by simp)
  obtain ⟨init, d, htext, hd⟩ := h.trimmed.last
  have hend : word ++ ' ' :: text = word ++ ' ' :: init ++ [d] := by simp [htext]
  have ht : Trimmed (word ++ ' ' :: text) := by
    obtain ⟨c, rest, rfl, hc⟩ := hword.first
    exact ⟨⟨c, _, rfl, hc⟩, ⟨_, d, hend, hd⟩⟩
  refine ⟨ht, ?_, ?_, (splitParts_eq_ok_iff ht).2 ?_⟩
  · intro index
    rw [TagScan.run_append, TagScan.run_nested hnest, TagScan.run]
    exact h.quotes _
  · have hlast := h.last
    rw [htext, List.getLast?_concat] at hlast
    rwa [hend, List.getLast?_concat]
  · have hclose : closePart .space word = .ok [word] := by
      simpa using closePart_trimmed .space [] [] (by simp) (by simp) hword
    have hrest := (splitParts_eq_ok_iff h.trimmed).1 h.words
    have hcut : splitFrom .space .plain .top word.reverse (' ' :: text) = .ok (word :: words) := by
      have hstep := splitFrom_cut .space word.reverse text
      rw [List.reverse_reverse, hclose, hrest] at hstep
      exact hstep
    rw [splitFrom_nested hnest (fun _ => List.mem_singleton_self _), List.append_nil, hcut]

theorem split (h : EntryText text words) (tag : List Char) :
    trim (text ++ tagSuffix tag) = text ++ tagSuffix tag ∧
      splitTag (text ++ tagSuffix tag) = .ok (text, tag) :=
  ⟨trim_of_trimmed (trimmed_tagSuffix h.trimmed tag),
    splitTag_tagSuffix (h.quotes 0) h.trimmed h.last tag⟩

theorem embedded (h : EntryText text [text]) (tag : List Char) :
    fieldEntry (text ++ tagSuffix tag) = .ok ⟨none, text, tag, true⟩ := by
  obtain ⟨htrim, htag⟩ := h.split tag
  rw [fieldEntry, htrim, htag]
  simp only [bind, Except.bind, h.words]
  rfl

theorem assigned {name type : List Char} (h : EntryText text [name, ['='], type])
    (hname : unqualified name ≠ []) (tag : List Char) :
    fieldEntry (text ++ tagSuffix tag) = .ok ⟨some (unqualified name), type, tag, true⟩ := by
  obtain ⟨htrim, htag⟩ := h.split tag
  rw [fieldEntry, htrim, htag]
  simp only [bind, Except.bind, h.words]
  rw [if_neg hname]

/-- The word before a declared type gives its name after the last point. -/
theorem declared (h : EntryText text words) (hequals : ∀ type, words ≠ [['='], type])
    {word : List Char} (hname : unqualified word ≠ []) (hord : ∀ c ∈ word, IsOrdinary c)
    (tag : List Char) :
    fieldEntry (word ++ ' ' :: text ++ tagSuffix tag) =
      .ok ⟨some (unqualified word), text, tag, false⟩ := by
  have hne : word ≠ [] := by
    rintro rfl
    exact hname rfl
  have hwords : words ≠ [] := words_ne_nil h.trimmed h.words
  have hdrop : trim ((word ++ ' ' :: text).drop word.length) = text := by
    rw [List.drop_left, trim_space_cons h.trimmed]
  have hentry := h.named hne hord
  obtain ⟨htrim, htag⟩ := hentry.split tag
  rw [fieldEntry, htrim, htag]
  simp only [bind, Except.bind, hentry.words]
  rw [if_neg hname, hdrop]

end EntryText

theorem fieldEntry_type {stops text : List Char} (h : Nested stops text) (ht : Trimmed text)
    (hlast : text.getLast? ≠ some '"') (hparts : splitParts .space text = .ok [text])
    (tag : List Char) :
    fieldEntry (text ++ tagSuffix tag) = .ok ⟨none, text, tag, true⟩ :=
  EntryText.embedded ⟨ht, TagScan.run_nested h, hlast, hparts⟩ tag

/-- A text that does not begin with an equals sign does not have one for its first word. -/
theorem splitParts_ne_of_head {text : List Char} (ht : Trimmed text) (hne : text.head? ≠ some '=')
    (type : List Char) : splitParts .space text ≠ .ok [['='], type] := by
  intro hwords
  rcases exists_first_word ht hwords with ⟨-, hmore⟩ | ⟨pad, v, rfl, -, -⟩
  · cases hmore
  · exact hne rfl

/-- One word is no equals sign with a word after it, and neither is what begins otherwise. -/
theorem splitParts_ne_equals {text : List Char} (ht : Trimmed text)
    (heq : Nested [' '] text ∨ text.head? ≠ some '=') (type : List Char) :
    splitParts .space text ≠ .ok [['='], type] := by
  rcases heq with hword | hne
  · have hone : splitParts .space text = .ok [text] := splitParts_word ht hword
    rw [hone]
    intro hwords
    cases hwords
  · exact splitParts_ne_of_head ht hne type

theorem fieldEntry_named {word text : List Char} (hname : unqualified word ≠ [])
    (hord : ∀ c ∈ word, IsOrdinary c) (h : Nested [] text) (ht : Trimmed text)
    (hlast : text.getLast? ≠ some '"')
    (heq : ∀ type, splitParts .space text ≠ .ok [['='], type]) (tag : List Char) :
    fieldEntry (word ++ ' ' :: text ++ tagSuffix tag) =
      .ok ⟨some (unqualified word), text, tag, false⟩ := by
  obtain ⟨words, hwords⟩ := EntryText.of_nested h ht hlast
  refine hwords.declared ?_ hname hord tag
  rintro type rfl
  exact heq type hwords.words

/-- Between a name and an embedded type of one word there may stand an equals sign. -/
theorem fieldEntry_assigned {name text : List Char} (hname : isIdentifier name = true)
    (h : Nested [' '] text) (ht : Trimmed text) (hlast : text.getLast? ≠ some '"')
    (tag : List Char) :
    fieldEntry (name ++ " = ".toList ++ text ++ tagSuffix tag) =
      .ok ⟨some name, text, tag, true⟩ := by
  have hne := ne_nil_of_isIdentifier hname
  have hunq : unqualified name = name := unqualified_eq (point_not_mem_of_isIdentifier hname)
  have hequals : ∀ c ∈ ['='], IsOrdinary c := List.all_iff_forall_prop.1 (by decide)
  have hword : EntryText text [text] := ⟨ht, TagScan.run_nested h, hlast, splitParts_word ht h⟩
  have hentry := (hword.named (List.cons_ne_nil '=' []) hequals).named hne
    (isOrdinary_of_isIdentifier hname)
  have hread := hentry.assigned (by rwa [hunq]) tag
  rw [hunq] at hread
  have htext : name ++ " = ".toList ++ text = name ++ ' ' :: (['='] ++ ' ' :: text) := by simp
  rw [htext]
  exact hread

/-! ## Entries that were read -/

theorem trimmed_of_splitTag {entry rest tag : List Char} (h : splitTag entry = .ok (rest, tag))
    (ht : trim entry = entry) (hne : rest ≠ []) : Trimmed rest := by
  unfold splitTag at h
  split at h
  · obtain ⟨rfl, -⟩ := Prod.mk.inj (Except.ok.inj h)
    rw [← ht] at hne ⊢
    exact trimmed_trim hne
  · next start _ =>
    split at h <;> cases h
    have hentry : Trimmed entry := by
      rw [← ht]
      refine trimmed_trim fun hnil => hne ?_
      rw [ht] at hnil
      rw [hnil, List.take_nil]
      rfl
    obtain ⟨c, tail, rfl, hc⟩ := hentry.first
    cases start with
    | zero => exact absurd rfl hne
    | succ n =>
      have hstart : trimStart ((c :: tail).take (n + 1)) = (c :: tail).take (n + 1) :=
        List.dropWhile_cons_of_neg (by simp [hc])
      rw [← hstart] at hne ⊢
      exact trimmed_trim hne

/-- The words of a declared type are no equals sign with a type after it. -/
theorem words_of_fieldEntry {text : List Char} {e : FieldEntry} (h : fieldEntry text = .ok e)
    (hdeclared : e.embedded = false) :
    trim e.type = e.type ∧
      ∃ words, splitParts .space e.type = .ok words ∧ ∀ type, words ≠ [['='], type] := by
  unfold fieldEntry at h
  cases hs : splitTag (trim text) with
  | error => simp [hs, bind, Except.bind] at h
  | ok p =>
  obtain ⟨rest, tag⟩ := p
  cases hp : splitParts .space rest with
  | error => simp [hs, hp, bind, Except.bind] at h
  | ok parts =>
    simp only [hs, hp, bind, Except.bind] at h
    split at h
    · cases h
    · cases h
      cases hdeclared
    · split at h <;> cases h
      cases hdeclared
    · next name more hone hequals =>
      split at h <;> cases h
      have hmore : more ≠ [] := by
        rintro rfl
        exact hone rfl
      have hrest : rest ≠ [] := by
        rintro rfl
        cases hp
      have htrimmed := trimmed_of_splitTag hs (trim_trim text) hrest
      refine ⟨trim_trim _, more, splitParts_drop htrimmed hp hmore, ?_⟩
      rintro type rfl
      exact hequals _ rfl

end TypeIdentity.Literal
