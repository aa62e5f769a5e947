import TypeIdentity.Proofs.Literal.Entries
import TypeIdentity.Proofs.Offsets.Walks

/-! # Tags found by offsets

The quote that opens the last quoted span of an entry as it is found in the bytes of the entry, and
the bytes for which the escapes of a tag stand.  The value of the digits of an escape is built up in
a word, one digit after the other.
-/
namespace TypeIdentity.Offsets
open Text Literal

/-- Whether the place is inside quotes, where the last quote was opened, and the last span. -/
structure QuoteScan where
  quoted : Bool
  start : Nat
  last : Option (Nat × Nat)

namespace QuoteScan

def step : ScanStep QuoteScan (Option Nat) := fun s i c =>
  if c = '\\' ∧ s.quoted then return (s, true)
  else if c = '"' then
    if s.quoted then return (⟨false, s.start, some (s.start, i)⟩, false)
    else return (⟨true, i, s.last⟩, false)
  else return (s, false)

def finish (text : List Char) (s : QuoteScan) : Checked (Except Error) (Option Nat) :=
  match s.last with
  | none => return none
  | some (start, stop) => do
    if stop = (← sub (utf8Size text) 1) ∧ !s.quoted then return some start else return none

end QuoteScan

/-- The offset of the opening quote when a text ends with a complete quoted span. -/
def trailingQuoted (text : List Char) : Checked (Except Error) (Option Nat) :=
  if text.getLast? = some '"' then scan QuoteScan.step ⟨false, 0, none⟩ (QuoteScan.finish text) text
  else return none

theorem ascii_quoteStep : Ascii QuoteScan.step := by
  intro s i c hc
  rw [QuoteScan.step, if_neg fun h => ne_of_ascii hc (by decide) h.1,
    if_neg (ne_of_ascii hc (by decide))]

/-- What the two scans have in common: the quote that is open. -/
def SeesQuote (text : List Char) (s : QuoteScan) (skip : Bool) : TagScan → Prop
  | .outside => s.quoted = false ∧ skip = false
  | .inside start escaped =>
    s.quoted = true ∧ skip = escaped ∧ s.start = utf8Size (text.take start)

/-- Both scans see the same quotes as they go on. -/
theorem walkText_quotes {text before part rest : List Char} {s : QuoteScan} {skip : Bool}
    {t : TagScan} (htext : text = before ++ (part ++ rest)) (hs : SeesQuote text s skip t) :
    ∃ s' skip', SeesQuote text s' skip' (t.run before.length part) ∧
      walkText QuoteScan.step s skip (utf8Size before) (part ++ rest) =
        walkText QuoteScan.step s' skip' (utf8Size (before ++ part)) rest := by
  induction part generalizing before s skip t with
  | nil => exact ⟨s, skip, hs, by rw [List.append_nil]; rfl⟩
  | cons c part ih =>
    have hmove : text = (before ++ [c]) ++ (part ++ rest) := by rw [htext]; simp
    have hsize : utf8Size (before ++ [c]) = utf8Size before + c.utf8Size := by
      rw [utf8Size_append, utf8Size_cons, utf8Size_nil, Nat.add_zero]
    have hafter : before ++ [c] ++ part = before ++ c :: part := by simp
    have hnext {s' : QuoteScan} {skip' : Bool}
        (h : SeesQuote text s' skip' (t.step before.length c)) := ih hmove h
    rw [hsize, hafter, List.length_append, List.length_singleton] at hnext
    rw [TagScan.run, List.cons_append, walkText]
    cases t with
    | outside =>
      obtain ⟨hquoted, rfl⟩ := hs
      have hback : ¬(c = '\\' ∧ s.quoted = true) := by simp [hquoted]
      simp only [Bool.false_eq_true, if_false]
      rw [QuoteScan.step, if_neg hback]
      by_cases hc : c = '"'
      · rw [if_pos hc, if_neg (by simp [hquoted]), pure_bind]
        refine hnext ?_
        have hopen : utf8Size before = utf8Size (text.take before.length) := by
          rw [htext, List.take_left]
        rw [TagScan.step, if_pos hc]
        exact ⟨rfl, rfl, hopen⟩
      · rw [if_neg hc, pure_bind]
        refine hnext ?_
        rw [TagScan.step, if_neg hc]
        exact ⟨hquoted, rfl⟩
    | inside start escaped =>
      obtain ⟨hquoted, rfl, hstart⟩ := hs
      cases skip with
      | true => exact hnext ⟨hquoted, rfl, hstart⟩
      | false =>
        simp only [Bool.false_eq_true, if_false]
        rw [QuoteScan.step]
        by_cases hback : c = '\\'
        · rw [if_pos ⟨hback, hquoted⟩, pure_bind]
          refine hnext ?_
          rw [TagScan.step, if_pos hback]
          exact ⟨hquoted, rfl, hstart⟩
        rw [if_neg fun h => hback h.1]
        by_cases hc : c = '"'
        · rw [if_pos hc, if_pos hquoted, pure_bind]
          refine hnext ?_
          rw [TagScan.step, if_neg hback, if_pos hc]
          exact ⟨rfl, rfl⟩
        · rw [if_neg hc, pure_bind]
          refine hnext ?_
          rw [TagScan.step, if_neg hback, if_neg hc]
          exact ⟨hquoted, rfl, hstart⟩

/-- Scanning bytes finds the quote that scanning characters finds, and runs into no fault. -/
theorem trailingQuoted_eq {text : List Char} (hlimit : utf8Size text < sizeLimit) :
    trailingQuoted text = pure ((tagStart? text).map fun k => utf8Size (text.take k)) := by
  have hword : utf8Size text + 1 < wordLimit := wordLimit_of_sizeLimit hlimit
  rw [trailingQuoted]
  split
  · next hlast =>
    obtain ⟨init, rfl⟩ := List.getLast?_eq_some_iff.1 hlast
    have hstart : SeesQuote (init ++ ['"']) ⟨false, 0, none⟩ false .outside := ⟨rfl, rfl⟩
    obtain ⟨s, skip, hs, hwalk⟩ := @walkText_quotes (init ++ ['"']) [] init ['"'] _ _ _ rfl hstart
    rw [utf8Size_nil, List.nil_append] at hwalk
    rw [List.length_nil] at hs
    rw [scan_eq ascii_quoteStep _ _ hword, hwalk, tagStart?, List.dropLast_concat]
    simp only [hlast, if_true]
    have hsub : sub (utf8Size (init ++ ['"'])) 1 =
        (pure (utf8Size init) : Checked (Except Error) Nat) := by
      have hsize : utf8Size (init ++ ['"']) = utf8Size init + 1 := by
        rw [utf8Size_append]
        rfl
      rw [sub_eq (by omega), hsize, Nat.add_sub_cancel]
    -- the last quote closes a span only if one is open there and it is not escaped
    have hend (quoted : Bool) (start : Nat) (last : Option (Nat × Nat)) (h : quoted = true) :
        QuoteScan.finish (init ++ ['"']) ⟨quoted, start, last⟩ = pure none := by
      rw [QuoteScan.finish]
      cases last with
      | none => rfl
      | some p => simp only [hsub, pure_bind, h, Bool.not_true, Bool.false_eq_true, and_false, if_false]
    cases hrun : TagScan.run 0 .outside init with
    | outside =>
      rw [hrun] at hs
      obtain ⟨hquoted, rfl⟩ := hs
      simp only [walkText, QuoteScan.step, hquoted, Bool.false_eq_true, and_false, if_false, if_true,
        pure_bind, concluded_pure]
      exact hend true _ _ rfl
    | inside start escaped =>
      rw [hrun] at hs
      obtain ⟨hquoted, rfl, hstart⟩ := hs
      cases skip with
      | true =>
        simp only [walkText, if_true, concluded_pure]
        exact hend _ _ _ hquoted
      | false =>
        have hne : ¬('"' = '\\' ∧ s.quoted = true) := fun h => absurd h.1 (by decide)
        simp only [walkText, QuoteScan.step, Bool.false_eq_true, if_false, if_neg hne, if_pos hquoted,
          if_true, pure_bind, concluded_pure, QuoteScan.finish, hsub, hstart]
        rfl
  · next hlast =>
    rw [tagStart?_none hlast]
    rfl

end TypeIdentity.Offsets
