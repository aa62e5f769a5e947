import TypeIdentity.Error
import TypeIdentity.Scan.Quoting
import TypeIdentity.Text.Blank

/-! # Lists of parts

`splitParts` splits a text at a separator, except inside brackets of any kind and inside quotes.
Parts are trimmed; between commas or semicolons they must not be empty, and spaces count as one
however many there are.  Faults are reported from left to right.
-/
namespace TypeIdentity.Scan
open Text

/-- What may stand between two parts. -/
inductive Separator
  | comma | semicolon | space
  deriving DecidableEq, Repr

namespace Separator

def char : Separator → Char
  | comma => ','
  | semicolon => ';'
  | space => ' '

def ofChar? (c : Char) : Option Separator := [comma, semicolon, space].find? (·.char = c)

end Separator

/-- How many brackets of each kind are open. -/
structure Depths where
  round : Nat
  square : Nat
  curly : Nat
  deriving DecidableEq, Repr

namespace Depths

def top : Depths := ⟨0, 0, 0⟩

/-- Counts a bracket; `none` when it closes one that is not open. -/
def step (d : Depths) (c : Char) : Option Depths :=
  if c = '(' then some { d with round := d.round + 1 }
  else if c = '[' then some { d with square := d.square + 1 }
  else if c = '\x7b' then some { d with curly := d.curly + 1 }
  else if c = ')' then if d.round = 0 then none else some { d with round := d.round - 1 }
  else if c = ']' then if d.square = 0 then none else some { d with square := d.square - 1 }
  else if c = '\x7d' then if d.curly = 0 then none else some { d with curly := d.curly - 1 }
  else some d

end Depths

/-- The part that ends here, if it counts as one. -/
def closePart (sep : Separator) (part : List Char) : Except Flaw (List (List Char)) :=
  match trim part with
  | [] => if sep = .space then .ok [] else .error (.emptyPart sep.char)
  | c :: rest => .ok [c :: rest]

/-- Splits the rest of a text; `part`, last character first, is what the current part has so far. -/
def splitFrom (sep : Separator) (q : Quoting) (d : Depths) (part : List Char) :
    List Char → Except Flaw (List (List Char))
  | [] =>
    if q.quoted then .error .unterminatedQuote
    else if d ≠ .top then .error .unclosedBracket
    else closePart sep part.reverse
  | c :: rest =>
    if q.isStructural c then
      match d.step c with
      | none => .error (.unbalanced c)
      | some e =>
        if c = sep.char ∧ e = .top then do
          let closed ← closePart sep part.reverse
          return closed ++ (← splitFrom sep q e [] rest)
        else splitFrom sep q e (c :: part) rest
    else splitFrom sep (q.step c) d (c :: part) rest

/-- The trimmed parts of a text; a blank text has none. -/
def splitParts (sep : Separator) (id : List Char) : Except Error (List (List Char)) :=
  if isBlankText id then .ok []
  else match splitFrom sep .plain .top [] id with
    | .ok parts => .ok parts
    | .error flaw => .error (.malformed (String.ofList id) flaw)

/-- The same, for a separator given as a character. -/
def splitPartsBy (sep : Char) (id : List Char) : Except Error (List (List Char)) :=
  match Separator.ofChar? sep with
  | none => .error (.malformed (String.ofList id) (.notASeparator sep))
  | some sep => splitParts sep id

theorem isInfix_of_mem_closePart {sep : Separator} {part p : List Char} {parts : List (List Char)}
    (h : closePart sep part = .ok parts) (hp : p ∈ parts) : p <:+: part := by
  unfold closePart at h
  split at h
  · split at h <;> cases h
    cases hp
  · next c rest hc =>
    cases h
    rw [List.mem_singleton.1 hp, ← hc]
    exact isInfix_trim part

theorem isInfix_of_mem_splitFrom {sep : Separator} {q : Quoting} {d : Depths}
    {part text p : List Char} {parts : List (List Char)}
    (h : splitFrom sep q d part text = .ok parts) (hp : p ∈ parts) :
    p <:+: part.reverse ++ text := by
  fun_induction splitFrom sep q d part text generalizing parts with
  | case1 => cases h
  | case2 => cases h
  | case3 => simpa using isInfix_of_mem_closePart h hp
  | case4 => cases h
  | case5 q d part c rest _ e _ _ ih =>
    cases hc : closePart sep part.reverse with
    | error =>
      rw [hc] at h
      cases h
    | ok closed =>
      cases hr : splitFrom sep q e [] rest with
      | error =>
        rw [hc, hr] at h
        cases h
      | ok more =>
        rw [hc, hr] at h
        cases h
        rcases List.mem_append.1 hp with hp | hp
        · exact (isInfix_of_mem_closePart hc hp).trans ⟨[], c :: rest, by simp⟩
        · exact (ih hr hp).trans ⟨part.reverse ++ [c], [], by simp⟩
  | case6 q d part c rest _ e _ _ ih => simpa using ih h hp
  | case7 q d part c rest _ ih => simpa using ih h hp

theorem isInfix_of_mem_splitParts {sep : Separator} {id p : List Char} {parts : List (List Char)}
    (h : splitParts sep id = .ok parts) (hp : p ∈ parts) : p <:+: id := by
  unfold splitParts at h
  split at h
  · cases h
    cases hp
  · split at h <;> cases h
    next hs => exact isInfix_of_mem_splitFrom hs hp

/-- No part is longer than the text. -/
theorem length_le_of_mem_splitParts {sep : Separator} {id p : List Char} {parts : List (List Char)}
    (h : splitParts sep id = .ok parts) (hp : p ∈ parts) : p.length ≤ id.length :=
  (isInfix_of_mem_splitParts h hp).length_le

end TypeIdentity.Scan
