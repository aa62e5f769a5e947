/-! # Quotes and escapes while scanning

A scanner reads a type id from left to right.  Inside double quotes brackets and separators mean
nothing, and a backslash takes the meaning from the character after it, inside quotes or outside.
-/
namespace TypeIdentity.Scan

/-- Whether the next character is inside quotes, and whether a backslash stands before it. -/
structure Quoting where
  quoted : Bool
  escaped : Bool
  deriving DecidableEq, Repr

namespace Quoting

/-- Outside quotes, with no backslash before. -/
def plain : Quoting := ⟨false, false⟩

/-- Whether a character may be a bracket or a separator here. -/
def isStructural (q : Quoting) (c : Char) : Bool :=
  !q.quoted && !q.escaped && c != '"' && c != '\\'

def step (q : Quoting) (c : Char) : Quoting :=
  if q.escaped then ⟨q.quoted, false⟩
  else if c = '\\' then ⟨q.quoted, true⟩
  else if c = '"' then ⟨!q.quoted, false⟩
  else q

def run (q : Quoting) (text : List Char) : Quoting := text.foldl step q

@[simp] theorem run_nil (q : Quoting) : q.run [] = q := rfl

@[simp] theorem run_cons (q : Quoting) (c : Char) (rest : List Char) :
    q.run (c :: rest) = (q.step c).run rest := rfl

@[simp] theorem run_append (q : Quoting) (u v : List Char) : q.run (u ++ v) = (q.run u).run v :=
  List.foldl_append

end Quoting
end TypeIdentity.Scan
