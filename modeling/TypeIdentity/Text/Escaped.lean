import TypeIdentity.Unicode.DefaultIgnorable
import TypeIdentity.Unicode.Graphic
import TypeIdentity.Unicode.GraphemeExtend

/-! # Text shown inside messages

A shown text stands between quotation marks.  The mark itself, the backslash and every character
without a visible form of its own are escaped, so that a message fits on one line.
-/
namespace TypeIdentity.Text

/-- The halfwidth voicing marks, which join the letter before them but take a cell of their own. -/
def isHalfwidthMark (c : Char) : Bool := c = '\uFF9E' || c = '\uFF9F'

/-- Characters that can be told from a text that shows them as they are. -/
def standsAlone (c : Char) : Bool :=
  Unicode.isGraphic c && !Unicode.isDefaultIgnorable c &&
    (!Unicode.isGraphemeExtend c || isHalfwidthMark c)

/-- One character as it is shown between the marks `mark`. -/
def shownChar (mark c : Char) : List Char :=
  if c = '\x00' then ['\\', '0']
  else if c = '\t' then ['\\', 't']
  else if c = '\r' then ['\\', 'r']
  else if c = '\n' then ['\\', 'n']
  else if c = '\\' ∨ c = mark then ['\\', c]
  else if standsAlone c then [c]
  else ['\\', 'u', '\x7b'] ++ Nat.toDigits 16 c.toNat ++ ['\x7d']

def shown (s : String) : String :=
  String.ofList ('"' :: s.toList.flatMap (shownChar '"') ++ ['"'])

def shownQuoted (c : Char) : String :=
  String.ofList ('\'' :: shownChar '\'' c ++ ['\''])

end TypeIdentity.Text
