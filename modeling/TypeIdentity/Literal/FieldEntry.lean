import TypeIdentity.Scan.Parts

/-! # Struct field entries

An entry of a struct body is a type, alone or after a name, with a quoted tag at the end if the
field has one.  The tag is found by reading quotes up to the end of the entry, the name by splitting
what is left at spaces.  The type text is a part of the entry.
-/
namespace TypeIdentity.Literal
open Text Scan

/-- What a scanner for tags has seen last: no open quote, or one opened at an index. -/
inductive TagScan
  | outside
  | inside (start : Nat) (escaped : Bool)
  deriving DecidableEq, Repr

namespace TagScan

/-- Reads the character at `index`; a backslash counts only inside quotes. -/
def step (index : Nat) (c : Char) : TagScan → TagScan
  | outside => if c = '"' then inside index false else outside
  | inside start true => inside start false
  | inside start false =>
    if c = '\\' then inside start true else if c = '"' then outside else inside start false

def run (index : Nat) (s : TagScan) : List Char → TagScan
  | [] => s
  | c :: rest => run (index + 1) (s.step index c) rest

end TagScan

/-- The index of the opening quote when a text ends with a complete quoted span. -/
def tagStart? (text : List Char) : Option Nat :=
  match TagScan.run 0 .outside text.dropLast with
  | .inside start false => if text.getLast? = some '"' then some start else none
  | _ => none

/-- The pieces of an entry; without a name the field is called after the type it embeds. -/
structure FieldEntry where
  name : Option (List Char)
  type : List Char
  tag : List Char
  embedded : Bool
  deriving DecidableEq, Repr

def unqualified (name : List Char) : List Char :=
  (name.reverse.takeWhile (· ≠ '.')).reverse

def splitTag (entry : List Char) : Except Error (List Char × List Char) :=
  match tagStart? entry with
  | none => .ok (entry, [])
  | some start =>
    match unquote (entry.drop start) with
    | .ok tag => .ok (trimEnd (entry.take start), tag)
    | .error e => .error (.malformed (String.ofList entry) (.badTag e))

/-- Reads an entry: a type, a name and a type, or a name, an equals sign and an embedded type. -/
def fieldEntry (text : List Char) : Except Error FieldEntry := do
  let entry := trim text
  let (rest, tag) ← splitTag entry
  let checked (name : List Char) (type : List Char) (embedded : Bool) : Except Error FieldEntry :=
    if unqualified name = [] then .error (.malformed (String.ofList entry) .emptyFieldName)
    else .ok ⟨some (unqualified name), type, tag, embedded⟩
  match ← splitParts .space rest with
  | [] => throw (.malformed (String.ofList entry) .emptyField)
  | [type] => return ⟨none, type, tag, true⟩
  | [name, ['='], type] => checked name type true
  | name :: _ => checked name (trim (rest.drop name.length)) false

theorem isPrefix_of_splitTag {entry rest tag : List Char} (h : splitTag entry = .ok (rest, tag)) :
    rest <+: entry := by
  unfold splitTag at h
  split at h
  · cases h
    exact List.prefix_rfl
  · next start _ =>
    split at h <;> cases h
    have htake := List.take_prefix start entry
    exact (isPrefix_trimEnd _).trans htake

theorem isInfix_of_fieldEntry {text : List Char} {e : FieldEntry} (h : fieldEntry text = .ok e) :
    e.type <:+: text := by
  have ht := isInfix_trim text
  unfold fieldEntry at h
  cases hs : splitTag (trim text) with
  | error => simp [hs, bind, Except.bind] at h
  | ok p =>
    obtain ⟨rest, tag⟩ := p
    have hr := (isPrefix_of_splitTag hs).isInfix.trans ht
    cases hp : splitParts .space rest with
    | error => simp [hs, hp, bind, Except.bind] at h
    | ok parts =>
      have hpart (p : List Char) (hm : p ∈ parts) : p <:+: text :=
        (isInfix_of_mem_splitParts hp hm).trans hr
      simp only [hs, hp, bind, Except.bind] at h
      split at h
      · cases h
      · next type =>
        cases h
        exact hpart type (List.mem_singleton_self type)
      · next name type =>
        split at h <;> cases h
        exact hpart type (by simp)
      · next name _ _ _ =>
        split at h <;> cases h
        exact (isInfix_trim _).trans ((List.drop_suffix name.length rest).isInfix.trans hr)

theorem length_fieldEntry_type_le {text : List Char} {e : FieldEntry}
    (h : fieldEntry text = .ok e) : e.type.length ≤ text.length :=
  (isInfix_of_fieldEntry h).length_le

end TypeIdentity.Literal
