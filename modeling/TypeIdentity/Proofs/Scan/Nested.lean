import TypeIdentity.Literal.FieldEntry
import TypeIdentity.Proofs.Text.Quoting
import TypeIdentity.Proofs.Text.Trimming
import TypeIdentity.Scan.Span

/-! # Properly nested texts

A text is nested when its brackets come in pairs, its quotes belong to quoted strings, and chosen
characters, the stops, do not occur outside of all brackets and quotes.  Every scanner passes over
such a text: it is then as deep as before, and it has cut nothing off.
-/
namespace TypeIdentity.Scan
open Text

/-- Neither a bracket nor a quote nor a backslash. -/
def IsPlain (c : Char) : Prop := c ∉ ['(', ')', '[', ']', '\x7b', '\x7d', '"', '\\']

/-- Brackets in pairs, quoted strings, and plain characters that are no stops. -/
inductive Nested : (stops text : List Char) → Prop
  | nil {stops : List Char} : Nested stops []
  | char {stops rest : List Char} {c : Char} (hc : IsPlain c) (hs : c ∉ stops)
      (hr : Nested stops rest) : Nested stops (c :: rest)
  | quoted {stops rest : List Char} (s : List Char) (hr : Nested stops rest) :
      Nested stops (quote s ++ rest)
  | bracket {stops inner rest : List Char} (kind : Bracket) (hi : Nested [] inner)
      (hr : Nested stops rest) : Nested stops (kind.opener :: inner ++ kind.closer :: rest)

theorem isPlain_of_isOrdinary {c : Char} (h : IsOrdinary c) : IsPlain c := by
  intro hc
  have hsub : ∀ d ∈ ['(', ')', '[', ']', '\x7b', '\x7d', '"', '\\'], d ∈ reservedChars :=
    List.all_iff_forall_prop.1 (by decide)
  exact h.2 (hsub c hc)

theorem not_mem_separators_of_isOrdinary {c : Char} (h : IsOrdinary c) :
    c ∉ [',', ';', ' '] := by
  intro hc
  simp only [List.mem_cons, List.not_mem_nil, or_false] at hc
  rcases hc with rfl | rfl | rfl
  · exact h.2 (by decide)
  · exact h.2 (by decide)
  · exact absurd h.1 (by decide)

namespace Nested
variable {stops u v : List Char}

theorem append (hu : Nested stops u) (hv : Nested stops v) : Nested stops (u ++ v) := by
  induction hu with
  | nil => exact hv
  | char hc hs _ ih => exact char hc hs (ih hv)
  | quoted s _ ih => rw [List.append_assoc]; exact quoted s (ih hv)
  | bracket kind hi _ _ ih =>
    rw [List.append_assoc, List.cons_append]
    exact bracket kind hi (ih hv)

theorem mono {fewer : List Char} (h : Nested stops u) (hs : ∀ c ∈ fewer, c ∈ stops) :
    Nested fewer u := by
  induction h with
  | nil => exact nil
  | char hc hn _ ih => exact char hc (fun hm => hn (hs _ hm)) (ih hs)
  | quoted s _ ih => exact quoted s (ih hs)
  | bracket kind hi _ _ ih => exact bracket kind hi (ih hs)

theorem anywhere (h : Nested stops u) : Nested [] u := h.mono (by simp)

theorem of_plain (h : ∀ c ∈ u, IsPlain c ∧ c ∉ stops) : Nested stops u := by
  induction u with
  | nil => exact nil
  | cons c rest ih =>
    obtain ⟨hc, hs⟩ := h c (List.mem_cons_self ..)
    exact char hc hs (ih fun d hd => h d (List.mem_cons_of_mem _ hd))

theorem of_ordinary (h : ∀ c ∈ u, IsOrdinary c) (hs : ∀ c ∈ stops, c ∈ [',', ';', ' ']) :
    Nested stops u :=
  of_plain fun c hc => ⟨isPlain_of_isOrdinary (h c hc),
    fun hm => not_mem_separators_of_isOrdinary (h c hc) (hs c hm)⟩

theorem brackets (kind : Bracket) (h : Nested [] u) :
    Nested stops (kind.opener :: u ++ [kind.closer]) := bracket kind h nil

theorem intercalate {sep : List Char} {texts : List (List Char)} (hs : Nested stops sep)
    (ht : ∀ t ∈ texts, Nested stops t) : Nested stops (List.intercalate sep texts) := by
  induction texts with
  | nil => exact nil
  | cons t texts ih =>
    have hhead : Nested stops t := ht t (List.mem_cons_self ..)
    have htail := ih fun u hu => ht u (List.mem_cons_of_mem _ hu)
    cases texts with
    | nil => rwa [List.intercalate_singleton]
    | cons u texts =>
      rw [List.intercalate_cons_cons]
      exact (hhead.append hs).append htail

end Nested

/-! ## One character at a time -/

theorem isStructural_plain {c : Char} (h : IsPlain c) : Quoting.plain.isStructural c = true := by
  simp only [IsPlain, List.mem_cons, not_or] at h
  simp [Quoting.isStructural, Quoting.plain, h]

theorem step_plain {c : Char} (h : IsPlain c) : Quoting.plain.step c = .plain := by
  simp only [IsPlain, List.mem_cons, not_or] at h
  simp [Quoting.step, Quoting.plain, h]

/-- Only outside of quotes and escapes may a character be a bracket or a separator. -/
theorem eq_plain_of_isStructural {q : Quoting} {c : Char} (h : q.isStructural c = true) : q = .plain := by
  obtain ⟨quoted, escaped⟩ := q
  simp only [Quoting.isStructural, Bool.and_eq_true, Bool.not_eq_true'] at h
  obtain ⟨⟨⟨rfl, rfl⟩, -⟩, -⟩ := h
  rfl

theorem step_of_isStructural {q : Quoting} {c : Char} (h : q.isStructural c = true) : q.step c = q := by
  obtain ⟨quoted, escaped⟩ := q
  simp only [Quoting.isStructural, Bool.and_eq_true, Bool.not_eq_true', bne_iff_ne] at h
  obtain ⟨⟨⟨rfl, rfl⟩, hq⟩, hb⟩ := h
  simp [Quoting.step, hq, hb]

theorem IsPlain.ne_opener {c : Char} (h : IsPlain c) (kind : Bracket) : c ≠ kind.opener := by
  rintro rfl
  cases kind <;> exact h (by decide)

theorem IsPlain.ne_closer {c : Char} (h : IsPlain c) (kind : Bracket) : c ≠ kind.closer := by
  rintro rfl
  cases kind <;> exact h (by decide)

theorem opener_ne_closer (kind kind' : Bracket) : kind.opener ≠ kind'.closer := by
  cases kind <;> cases kind' <;> decide

theorem opener_inj {kind kind' : Bracket} (h : kind.opener = kind'.opener) : kind = kind' := by
  cases kind <;> cases kind' <;> first | rfl | exact absurd h (by decide)

theorem closer_inj {kind kind' : Bracket} (h : kind.closer = kind'.closer) : kind = kind' := by
  cases kind <;> cases kind' <;> first | rfl | exact absurd h (by decide)

theorem isStructural_opener (kind : Bracket) : Quoting.plain.isStructural kind.opener = true := by
  cases kind <;> rfl

theorem isStructural_closer (kind : Bracket) : Quoting.plain.isStructural kind.closer = true := by
  cases kind <;> rfl

theorem step_opener (kind : Bracket) : Quoting.plain.step kind.opener = .plain := by
  cases kind <;> rfl

theorem step_closer (kind : Bracket) : Quoting.plain.step kind.closer = .plain := by
  cases kind <;> rfl

/-! ## The bracket that closes -/

section Close
variable {kind : Bracket} {depth : Nat} {q : Quoting}

/-- The result of cutting further on, when a text has been passed over. -/
def passed (text : List Char) (cut : Option (List Char × List Char)) :
    Option (List Char × List Char) := cut.map fun p => (text ++ p.1, p.2)

theorem passed_nil (cut : Option (List Char × List Char)) : passed [] cut = cut := by
  simp [passed]

theorem passed_append (u v : List Char) (cut : Option (List Char × List Char)) :
    passed (u ++ v) cut = passed u (passed v cut) := by
  simp [passed, Function.comp_def]

theorem cutClose_skip {c : Char} (rest : List Char)
    (hc : q.isStructural c = false ∨ (c ≠ kind.opener ∧ c ≠ kind.closer)) :
    cutClose kind depth q (c :: rest) = passed [c] (cutClose kind depth (q.step c) rest) := by
  rcases hc with hc | ⟨ho, hc⟩
  · simp [cutClose, hc, passed]
  · simp [cutClose, ho, hc, passed]

theorem cutClose_passes {text : List Char} (h : q.Passes text) (rest : List Char) :
    cutClose kind depth q (text ++ rest) =
      passed text (cutClose kind depth (q.run text) rest) := by
  induction text generalizing q with
  | nil => rw [passed_nil]; rfl
  | cons c text ih =>
    rw [List.cons_append, cutClose_skip _ (.inl h.1), ih h.2, ← passed_append]
    rfl

theorem cutClose_opener (rest : List Char) :
    cutClose kind depth .plain (kind.opener :: rest) =
      passed [kind.opener] (cutClose kind (depth + 1) .plain rest) := by
  rw [cutClose.eq_def]
  simp [isStructural_opener, opener_ne_closer kind kind, passed]

theorem cutClose_closer_succ (rest : List Char) :
    cutClose kind (depth + 1) .plain (kind.closer :: rest) =
      passed [kind.closer] (cutClose kind depth .plain rest) := by
  simp [cutClose, isStructural_closer, passed]

theorem cutClose_closer (rest : List Char) :
    cutClose kind 0 .plain (kind.closer :: rest) = some ([], rest) := by
  simp [cutClose, isStructural_closer]

/-- A nested text is passed over on the way to the closing bracket. -/
theorem cutClose_nested {stops text : List Char} (h : Nested stops text) (rest : List Char) :
    cutClose kind depth .plain (text ++ rest) =
      passed text (cutClose kind depth .plain rest) := by
  induction h generalizing depth rest with
  | nil => rw [passed_nil]; rfl
  | char hc _ _ ih =>
    rw [List.cons_append, cutClose_skip _ (.inr ⟨hc.ne_opener kind, hc.ne_closer kind⟩),
      step_plain hc, ih, ← passed_append]
    rfl
  | quoted s _ ih =>
    obtain ⟨hp, hr⟩ := Quoting.plain_quote s
    rw [List.append_assoc, cutClose_passes hp, hr, ih, ← passed_append]
  | bracket kind' _ _ ihi ihr =>
    rw [List.append_assoc, List.cons_append, List.cons_append]
    by_cases hk : kind' = kind
    · subst hk
      rw [cutClose_opener, ihi, cutClose_closer_succ, ihr, ← passed_append, ← passed_append,
        ← passed_append]
      simp
    · have ho : kind'.opener ≠ kind.opener := fun h => hk (opener_inj h)
      have hc : kind'.closer ≠ kind.closer := fun h => hk (closer_inj h)
      rw [cutClose_skip _ (.inr ⟨ho, opener_ne_closer kind' kind⟩), step_opener, ihi,
        cutClose_skip _ (.inr ⟨(opener_ne_closer kind kind').symm, hc⟩), step_closer, ihr,
        ← passed_append, ← passed_append, ← passed_append]
      simp

end Close

end TypeIdentity.Scan
