import TypeIdentity.Error
import TypeIdentity.Scan.Quoting

/-! # The first bracketed span

`firstSpan` cuts a text at the first bracket of a kind and at the bracket that closes it; brackets
of the other kinds, and everything inside quotes, are ordinary text.  The three pieces and the two
brackets make up the whole text.
-/
namespace TypeIdentity.Scan
open Text

/-- The kinds of brackets. -/
inductive Bracket
  | round | square | curly
  deriving DecidableEq, Repr

namespace Bracket

def opener : Bracket → Char
  | round => '('
  | square => '['
  | curly => '\x7b'

def closer : Bracket → Char
  | round => ')'
  | square => ']'
  | curly => '\x7d'

def ofOpener? (c : Char) : Option Bracket := [round, square, curly].find? (·.opener = c)

end Bracket

/-- A text cut at a bracket and at the bracket that closes it. -/
structure Span where
  before : List Char
  inner : List Char
  after : List Char
  deriving DecidableEq, Repr

namespace Span

/-- Byte offset of the opening bracket. -/
def openOffset (b : Span) : Nat := utf8Size b.before

/-- Byte offset of the closing bracket. -/
def closeOffset (b : Span) : Nat := utf8Size b.before + 1 + utf8Size b.inner

end Span

/-- Cuts at the first opening bracket; `error` means that a closing one came first. -/
def cutOpen (kind : Bracket) (q : Quoting) :
    List Char → Except Unit (Option (List Char × List Char))
  | [] => .ok none
  | c :: rest =>
    if q.isStructural c && c == kind.opener then .ok (some ([], rest))
    else if q.isStructural c && c == kind.closer then .error ()
    else (·.map fun p => (c :: p.1, p.2)) <$> cutOpen kind (q.step c) rest

/-- Cuts at the bracket that closes the one already open, `depth` more being open inside it. -/
def cutClose (kind : Bracket) (depth : Nat) (q : Quoting) :
    List Char → Option (List Char × List Char)
  | [] => none
  | c :: rest =>
    if q.isStructural c && c == kind.closer then
      match depth with
      | 0 => some ([], rest)
      | d + 1 => (cutClose kind d q rest).map fun p => (c :: p.1, p.2)
    else if q.isStructural c && c == kind.opener then
      (cutClose kind (depth + 1) q rest).map fun p => (c :: p.1, p.2)
    else (cutClose kind depth (q.step c) rest).map fun p => (c :: p.1, p.2)

/-- The first bracketed span, or `none` when the text has no bracket of the kind outside quotes. -/
def firstSpan (kind : Bracket) (id : List Char) : Except Error (Option Span) :=
  match cutOpen kind .plain id with
  | .error _ => .error (.malformed (String.ofList id) (.unbalanced kind.closer))
  | .ok none => .ok none
  | .ok (some (before, rest)) =>
    match cutClose kind 0 .plain rest with
    | none => .error (.malformed (String.ofList id) (.unbalanced kind.opener))
    | some (inner, after) => .ok (some ⟨before, inner, after⟩)

def firstSpanBy (opener : Char) (id : List Char) : Except Error (Option Span) :=
  match Bracket.ofOpener? opener with
  | none => .error (.malformed (String.ofList id) (.notABracket opener))
  | some kind => firstSpan kind id

/-- The first bracketed span of a text that must have one. -/
def requireSpan (kind : Bracket) (id : List Char) : Except Error Span :=
  match firstSpan kind id with
  | .error e => .error e
  | .ok none => .error (.malformed (String.ofList id) (.expected kind.opener))
  | .ok (some b) => .ok b

theorem cutOpen_eq_append {kind : Bracket} {q : Quoting} {text u v : List Char}
    (h : cutOpen kind q text = .ok (some (u, v))) : text = u ++ kind.opener :: v := by
  fun_induction cutOpen kind q text generalizing u with
  | case1 => simp at h
  | case2 q c rest hc => simp_all
  | case3 => simp at h
  | case4 q c rest _ _ ih =>
    cases hr : cutOpen kind (q.step c) rest with
    | error => simp [hr, Except.map, Functor.map] at h
    | ok r =>
      rcases r with _ | ⟨u', v'⟩
      · simp [hr, Except.map, Functor.map] at h
      · simp [hr, Except.map, Functor.map] at h
        obtain ⟨rfl, rfl⟩ := h
        simp [ih hr]

theorem cutClose_eq_append {kind : Bracket} {depth : Nat} {q : Quoting} {text u v : List Char}
    (h : cutClose kind depth q text = some (u, v)) : text = u ++ kind.closer :: v := by
  fun_induction cutClose kind depth q text generalizing u with
  | case1 => simp at h
  | case2 q c rest hc => simp_all
  | case3 q c rest hc d ih | case4 depth q c rest hn hc ih | case5 depth q c rest hn hc ih =>
    obtain ⟨⟨u', v'⟩, hr, he⟩ := Option.map_eq_some_iff.1 h
    obtain ⟨rfl, rfl⟩ := Prod.mk.inj he
    simp [ih hr]

/-- The pieces and the brackets between them make up the text. -/
theorem firstSpan_eq_append {kind : Bracket} {id : List Char} {b : Span}
    (h : firstSpan kind id = .ok (some b)) :
    id = b.before ++ kind.opener :: (b.inner ++ kind.closer :: b.after) := by
  unfold firstSpan at h
  split at h <;> try simp at h
  next before rest ho =>
    split at h <;> simp at h
    next inner after hc =>
      subst h
      rw [cutOpen_eq_append ho, cutClose_eq_append hc]

theorem requireSpan_eq_append {kind : Bracket} {id : List Char} {b : Span}
    (h : requireSpan kind id = .ok b) :
    id = b.before ++ kind.opener :: (b.inner ++ kind.closer :: b.after) := by
  unfold requireSpan at h
  split at h <;> simp at h
  next hb => exact firstSpan_eq_append (h ▸ hb)

end TypeIdentity.Scan
