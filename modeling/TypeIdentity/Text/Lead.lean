/-! # Leading words

The text after a word with which another text begins.
-/
namespace TypeIdentity.Text

/-- The text after a leading word; `none` when the text does not begin with it. -/
def after? (lead : String) (text : List Char) : Option (List Char) := lead.toList.isPrefixOf? text

theorem length_of_isPrefixOf? {lead text rest : List Char} (h : lead.isPrefixOf? text = some rest) :
    text.length = lead.length + rest.length := by
  induction lead generalizing text with
  | nil =>
    obtain rfl : text = rest := Option.some.inj h
    simp
  | cons c lead ih =>
    cases text with
    | nil => cases h
    | cons d text =>
      change (if c == d then lead.isPrefixOf? text else none) = some rest at h
      split at h
      · have := ih h
        simp only [List.length_cons]
        omega
      · cases h

theorem length_of_after? {lead : String} {text rest : List Char}
    (h : after? lead text = some rest) : text.length = lead.length + rest.length := by
  rw [length_of_isPrefixOf? h, String.length_toList]

end TypeIdentity.Text
