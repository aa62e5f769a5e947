import Mathlib.Data.Bool.AllAny
import Mathlib.Data.List.TakeWhile
import TypeIdentity.Identifier
import TypeIdentity.Text.Blank

/-! # Trimmed texts

A text is trimmed when it has no blanks at its ends, and `trim` then returns it from between any
blanks.  Identifiers hold neither blanks nor any character that a scanner looks for.
-/
namespace TypeIdentity.Text

/-- Brackets, separators, quotes and backslashes. -/
def reservedChars : List Char := ['(', ')', '[', ']', '\x7b', '\x7d', ',', ';', '"', '\\']

/-- Characters that neither end a text when it is trimmed nor mean anything to a scanner. -/
def IsOrdinary (c : Char) : Prop := isBlank c = false ∧ c ∉ reservedChars

instance (c : Char) : Decidable (IsOrdinary c) := inferInstanceAs (Decidable (_ ∧ _))

def blankPoints : List Nat := [
  0x9, 0xA, 0xB, 0xC, 0xD, 0x20, 0x85, 0xA0, 0x1680, 0x2000, 0x2001, 0x2002, 0x2003, 0x2004, 0x2005,
  0x2006, 0x2007, 0x2008, 0x2009, 0x200A, 0x2028, 0x2029, 0x202F, 0x205F, 0x3000]

theorem mem_blankPoints {c : Char} (h : isBlank c = true) : c.toNat ∈ blankPoints := by
  simp only [isBlank, blankRanges, Unicode.Ranges.contains, Bool.and_eq_true, Bool.or_eq_true,
    decide_eq_true_eq, Bool.false_eq_true, or_false] at h
  simp only [blankPoints, List.mem_cons, List.not_mem_nil]
  omega

theorem isIdentRest_of_isIdentStart {c : Char} (h : isIdentStart c = true) :
    isIdentRest c = true := by
  simp only [isIdentStart, isIdentRest, isAlphanumeric, Bool.or_eq_true] at h ⊢
  exact h.imp_right Or.inl

theorem not_isBlank_of_isIdentRest {c : Char} (h : isIdentRest c = true) : isBlank c = false := by
  have outside : ∀ n ∈ blankPoints, isIdentRest (Char.ofNat n) = false := by decide +kernel
  cases hb : isBlank c with
  | false => rfl
  | true =>
    have hc := outside _ (mem_blankPoints hb)
    rw [Char.ofNat_toNat, h] at hc
    cases hc

theorem isOrdinary_of_isIdentRest {c : Char} (h : isIdentRest c = true) : IsOrdinary c := by
  have reserved : ∀ d ∈ reservedChars, isIdentRest d = false :=
    List.all_iff_forall_prop.1 (by decide +kernel)
  refine ⟨not_isBlank_of_isIdentRest h, ?_⟩
  intro hc
  rw [reserved c hc] at h
  cases h

theorem isIdentifier_iff {name : List Char} :
    isIdentifier name = true ↔
      ∃ c rest, name = c :: rest ∧ isIdentStart c = true ∧ ∀ d ∈ rest, isIdentRest d = true := by
  cases name with
  | nil => simp [isIdentifier]
  | cons c rest =>
    simp only [isIdentifier, Bool.and_eq_true, List.all_eq_true, List.cons.injEq]
    exact ⟨fun h => ⟨c, rest, ⟨rfl, rfl⟩, h⟩, fun ⟨_, _, ⟨hc, hr⟩, h⟩ => hc ▸ hr ▸ h⟩

theorem isIdentRest_of_isIdentifier {name : List Char} (h : isIdentifier name = true) :
    ∀ c ∈ name, isIdentRest c = true := by
  obtain ⟨c, rest, rfl, hc, hr⟩ := isIdentifier_iff.1 h
  intro d hd
  rcases List.mem_cons.1 hd with rfl | hd
  · exact isIdentRest_of_isIdentStart hc
  · exact hr d hd

theorem isOrdinary_of_isIdentifier {name : List Char} (h : isIdentifier name = true) :
    ∀ c ∈ name, IsOrdinary c := by
  intro c hc
  exact isOrdinary_of_isIdentRest (isIdentRest_of_isIdentifier h c hc)

theorem ne_nil_of_isIdentifier {name : List Char} (h : isIdentifier name = true) : name ≠ [] := by
  rintro rfl
  cases h

theorem point_not_mem_of_isIdentifier {name : List Char} (h : isIdentifier name = true) :
    '.' ∉ name := by
  intro hm
  have hr := isIdentRest_of_isIdentifier h _ hm
  revert hr
  decide +kernel

/-! ## Trimming -/

theorem isBlank_space : ∀ c ∈ [' '], isBlank c = true := List.all_eq_true.1 rfl

/-- Not empty, and without blanks at either end. -/
structure Trimmed (text : List Char) : Prop where
  first : ∃ c rest, text = c :: rest ∧ isBlank c = false
  last : ∃ init c, text = init ++ [c] ∧ isBlank c = false

theorem Trimmed.ne_nil {text : List Char} (h : Trimmed text) : text ≠ [] := by
  obtain ⟨c, rest, rfl, -⟩ := h.first
  exact List.cons_ne_nil c rest

theorem trimmed_of_ordinary {text : List Char} (hne : text ≠ [])
    (h : ∀ c ∈ text, IsOrdinary c) : Trimmed text := by
  constructor
  · obtain ⟨c, rest, rfl⟩ := List.exists_cons_of_ne_nil hne
    exact ⟨c, rest, rfl, (h c (List.mem_cons_self ..)).1⟩
  · refine ⟨text.dropLast, text.getLast hne, (List.dropLast_concat_getLast hne).symm, ?_⟩
    exact (h _ (List.getLast_mem hne)).1

theorem trimStart_blank (pad : List Char) {text : List Char} (hp : ∀ c ∈ pad, isBlank c = true)
    (ht : ∃ c rest, text = c :: rest ∧ isBlank c = false) : trimStart (pad ++ text) = text := by
  obtain ⟨c, rest, rfl, hc⟩ := ht
  rw [trimStart, List.dropWhile_append_of_pos hp, List.dropWhile_cons_of_neg (by simp [hc])]

theorem trimEnd_blank (pad : List Char) {text : List Char} (hp : ∀ c ∈ pad, isBlank c = true)
    (ht : ∃ init c, text = init ++ [c] ∧ isBlank c = false) : trimEnd (text ++ pad) = text := by
  obtain ⟨init, c, rfl, hc⟩ := ht
  have hp' : ∀ d ∈ pad.reverse, isBlank d = true := by
    intro d hd
    exact hp d (List.mem_reverse.1 hd)
  rw [trimEnd_eq, List.reverse_append, List.dropWhile_append_of_pos hp', List.reverse_append,
    List.reverse_singleton, List.singleton_append, List.dropWhile_cons_of_neg (by simp [hc])]
  simp

theorem trim_blank (before after : List Char) {text : List Char}
    (hb : ∀ c ∈ before, isBlank c = true) (ha : ∀ c ∈ after, isBlank c = true)
    (ht : Trimmed text) :
    trim (before ++ text ++ after) = text := by
  have hf : ∃ c rest, text ++ after = c :: rest ∧ isBlank c = false := by
    obtain ⟨c, rest, rfl, hc⟩ := ht.first
    exact ⟨c, rest ++ after, rfl, hc⟩
  rw [trim, List.append_assoc, trimStart_blank before hb hf, trimEnd_blank after ha ht.last]

theorem trim_of_trimmed {text : List Char} (h : Trimmed text) : trim text = text := by
  simpa using trim_blank [] [] (by simp) (by simp) h

theorem trim_space_cons {text : List Char} (h : Trimmed text) : trim (' ' :: text) = text := by
  simpa using trim_blank [' '] [] isBlank_space (by simp) h

/-- A text that begins with something visible still does when it is trimmed. -/
theorem trim_cons {c : Char} (hc : isBlank c = false) (rest : List Char) :
    ∃ rest', trim (c :: rest) = c :: rest' := by
  have hs : trimStart (c :: rest) = c :: rest := by
    simpa using trimStart_blank [] (by simp) ⟨c, rest, rfl, hc⟩
  rw [trim, hs, trimEnd_eq, List.reverse_cons]
  by_cases h : ∀ d ∈ rest.reverse, isBlank d = true
  · rw [List.dropWhile_append_of_pos h, List.dropWhile_cons_of_neg (by simp [hc])]
    exact ⟨[], rfl⟩
  · simp only [not_forall] at h
    obtain ⟨d, hd, hb⟩ := h
    have hne : rest.reverse.dropWhile isBlank ≠ [] := by
      intro hnil
      exact hb (List.dropWhile_eq_nil_iff.1 hnil d hd)
    rw [List.dropWhile_append, if_neg (by simpa using hne)]
    exact ⟨(rest.reverse.dropWhile isBlank).reverse, by simp⟩

theorem trimmed_trim {text : List Char} (h : trim text ≠ []) : Trimmed (trim text) := by
  have hvisible (s : List Char) {c : Char} {rest : List Char}
      (hs : s.dropWhile isBlank = c :: rest) : isBlank c = false := by
    have hfirst := List.head?_dropWhile_not isBlank s
    simpa [hs] using hfirst
  have hstart : trimStart text ≠ [] := by
    intro he
    exact h (by rw [trim, he]; rfl)
  have hend : (trimStart text).reverse.dropWhile isBlank ≠ [] := by
    intro he
    exact h (by rw [trim, trimEnd_eq, he]; rfl)
  constructor
  · obtain ⟨c, rest, hc⟩ := List.exists_cons_of_ne_nil hstart
    have hb : isBlank c = false := hvisible text hc
    have hkeep : trimStart (c :: rest) = c :: rest := List.dropWhile_cons_of_neg (by simp [hb])
    obtain ⟨rest', hr⟩ := trim_cons hb rest
    rw [trim, hkeep] at hr
    exact ⟨c, rest', by rw [trim, hc, hr], hb⟩
  · obtain ⟨d, init, hd⟩ := List.exists_cons_of_ne_nil hend
    exact ⟨init.reverse, d, by rw [trim, trimEnd_eq, hd]; simp, hvisible _ hd⟩

theorem trimmed_iff {text : List Char} : Trimmed text ↔ text ≠ [] ∧ trim text = text := by
  constructor
  · intro h
    exact ⟨h.ne_nil, trim_of_trimmed h⟩
  · rintro ⟨hne, ht⟩
    exact ht ▸ trimmed_trim (ht.symm ▸ hne)

instance (text : List Char) : Decidable (Trimmed text) := decidable_of_iff' _ trimmed_iff

theorem trim_trim (text : List Char) : trim (trim text) = trim text := by
  by_cases h : trim text = []
  · rw [h]
    rfl
  · exact trim_of_trimmed (trimmed_trim h)

theorem not_isBlankText_of_trimmed {text : List Char} (h : Trimmed text) :
    isBlankText text = false := by
  obtain ⟨c, rest, rfl, hc⟩ := h.first
  simp [isBlankText, hc]

end TypeIdentity.Text
