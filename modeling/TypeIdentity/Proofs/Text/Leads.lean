import Mathlib.Data.List.Basic
import TypeIdentity.Text.Lead

/-! # Leading words

A leading word is taken off exactly the texts that begin with it.
-/
namespace TypeIdentity.Text

theorem isPrefixOf?_append (lead rest : List Char) : lead.isPrefixOf? (lead ++ rest) = some rest := by
  induction lead with
  | nil => rfl
  | cons c lead ih => simp [List.isPrefixOf?, ih]

theorem eq_append_of_isPrefixOf? {lead text rest : List Char}
    (h : lead.isPrefixOf? text = some rest) : text = lead ++ rest := by
  induction lead generalizing text with
  | nil => exact Option.some.inj h
  | cons c lead ih =>
    cases text with
    | nil => cases h
    | cons d text =>
      simp only [List.isPrefixOf?] at h
      split at h
      · next he =>
        obtain rfl : c = d := by simpa using he
        rw [ih h, List.cons_append]
      · cases h

theorem after?_append (lead : String) (rest : List Char) :
    after? lead (lead.toList ++ rest) = some rest := isPrefixOf?_append lead.toList rest

theorem eq_append_of_after? {lead : String} {text rest : List Char}
    (h : after? lead text = some rest) : text = lead.toList ++ rest := eq_append_of_isPrefixOf? h

theorem isSuffix_of_after? {lead : String} {text rest : List Char}
    (h : after? lead text = some rest) : rest <:+ text := ⟨lead.toList, (eq_append_of_after? h).symm⟩

end TypeIdentity.Text
