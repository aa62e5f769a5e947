import TypeIdentity.Unicode.Ranges

/-! # Blank characters and trimming

Blanks are the characters with the Unicode property White_Space.  What is
left after trimming is a part of the text.
-/
namespace TypeIdentity.Text

/-- Code points with the property White_Space. -/
def blankRanges : Unicode.Ranges := [
  (0x9, 0xD), (0x20, 0x20), (0x85, 0x85), (0xA0, 0xA0), (0x1680, 0x1680), (0x2000, 0x200A),
  (0x2028, 0x2029), (0x202F, 0x202F), (0x205F, 0x205F), (0x3000, 0x3000)]

def isBlank (c : Char) : Bool := blankRanges.contains c.toNat

def trimStart (text : List Char) : List Char := text.dropWhile isBlank

/-- Drops the trailing blanks; a text without any is not built anew. -/
def trimEnd (text : List Char) : List Char :=
  if text.getLast?.any isBlank then (text.reverse.dropWhile isBlank).reverse else text

theorem trimEnd_eq (text : List Char) :
    trimEnd text = (text.reverse.dropWhile isBlank).reverse := by
  unfold trimEnd
  split
  · rfl
  · next h =>
    rw [← List.head?_reverse] at h
    cases hr : text.reverse with
    | nil => simpa using hr
    | cons c rest =>
      have hc : isBlank c = false := by simpa [hr] using h
      rw [List.dropWhile_cons_of_neg (by simp [hc]), ← hr, List.reverse_reverse]

def trim (text : List Char) : List Char := trimEnd (trimStart text)

def isBlankText (text : List Char) : Bool := text.all isBlank

theorem isSuffix_trimStart (text : List Char) : trimStart text <:+ text := List.dropWhile_suffix _

theorem isPrefix_trimEnd (text : List Char) : trimEnd text <+: text := by
  rw [trimEnd_eq, ← List.reverse_suffix, List.reverse_reverse]
  exact List.dropWhile_suffix _

theorem isInfix_trim (text : List Char) : trim text <:+: text :=
  (isPrefix_trimEnd _).isInfix.trans (isSuffix_trimStart text).isInfix

theorem length_trimStart_le (text : List Char) : (trimStart text).length ≤ text.length :=
  (isSuffix_trimStart text).length_le

theorem length_trim_le (text : List Char) : (trim text).length ≤ text.length :=
  (isInfix_trim text).length_le

end TypeIdentity.Text
