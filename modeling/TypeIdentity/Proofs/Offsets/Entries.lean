import TypeIdentity.Proofs.Literal.Names
import TypeIdentity.Proofs.Offsets.Escapes
import TypeIdentity.Proofs.Offsets.Parts
import TypeIdentity.Proofs.Offsets.Tags

/-! # Names and entries cut by offsets

A name is cut behind its last point, an entry before the quote that opens its tag and behind its
first word.  What is cut off is found by its offset every time, and the first word by its size.
-/
namespace TypeIdentity.Offsets
open Text Scan Literal

/-- Gives failures another form. -/
def rephrase {ε ε' α : Type} (f : ε → ε') (x : Checked (Except ε) α) : Checked (Except ε') α :=
  x.run.mapError f

/-- What stands behind the last point, or the whole name. -/
def unqualified {m : Type → Type} [Monad m] (name : List Char) : Checked m (List Char) :=
  match lastOffset? '.' name with
  | none => pure name
  | some i => sliceBehind name i

def splitTag (entry : List Char) : Checked (Except Error) (List Char × List Char) := do
  match ← trailingQuoted entry with
  | none => return (entry, [])
  | some start =>
    let quoted ← sliceFrom entry start
    let tag ← rephrase (fun e => .malformed (String.ofList entry) (.badTag e)) (unquote quoted)
    return (trimEnd (← sliceTo entry start), tag)

/-- Reads an entry: a type, a name and a type, or a name, an equals sign and an embedded type. -/
def fieldEntry (text : List Char) : Checked (Except Error) FieldEntry := do
  let entry := trim text
  let (rest, tag) ← splitTag entry
  let checked (name type : List Char) (embedded : Bool) : Checked (Except Error) FieldEntry := do
    let last ← unqualified name
    if last = [] then refuse (.malformed (String.ofList entry) .emptyFieldName)
    else return ⟨some last, type, tag, embedded⟩
  match ← splitParts .space rest with
  | [] => refuse (.malformed (String.ofList entry) .emptyField)
  | [type] => return ⟨none, type, tag, true⟩
  | [name, ['='], type] => checked name type true
  | name :: _ => do checked name (trim (← sliceFrom rest (utf8Size name))) false

/-- What stands before the first occurrence of a character, or the whole text. -/
def textBefore {m : Type → Type} [Monad m] (c : Char) (text : List Char) : Checked m (List Char) :=
  match firstOffset? c text with
  | none => pure text
  | some i => sliceTo text i

/-- The name under which a field that embeds the type is promoted. -/
def embeddedName {m : Type → Type} [Monad m] (t : TypeLiteral) : Checked m String :=
  match t.pointee with
  | .named _ name _ => pure name
  | .shape (.basic .unsafePointer) => pure "Pointer"
  | t => String.ofList <$> textBefore '[' t.canonical.toList

/-! ## What is cut -/

section
variable {m : Type → Type} [Monad m]

theorem textBefore_eq (c : Char) (text : List Char) :
    textBefore c text = (pure (text.takeWhile (· ≠ c)) : Checked m _) := by
  have hparts : text = text.takeWhile (· ≠ c) ++ text.dropWhile (· ≠ c) :=
    List.takeWhile_append_dropWhile.symm
  rw [textBefore, firstOffset?_eq]
  by_cases hdrop : text.dropWhile (· ≠ c) = []
  · rw [hdrop, List.append_nil] at hparts
    rw [if_pos hdrop, ← hparts]
  · rw [if_neg hdrop]
    exact sliceTo_eq hparts rfl

variable [LawfulMonad m]

/-- Behind the last point of a text there is none. -/
theorem lastOffset?_of_splitLastPoint {text u v : List Char}
    (h : Literal.splitLastPoint text = some (u, v)) :
    text = u ++ '.' :: v ∧ lastOffset? '.' text = some (utf8Size u) := by
  have htext := eq_append_of_splitLastPoint h
  have hpoint : '.' ∉ v := by
    rw [Literal.splitLastPoint] at h
    split at h <;> cases h
    exact point_not_mem_unqualified text
  refine ⟨htext, ?_⟩
  rw [htext]
  exact lastOffset?_append hpoint u

theorem unqualified_eq {name : List Char} (hlimit : utf8Size name < sizeLimit) :
    unqualified name = (pure (Literal.unqualified name) : Checked m _) := by
  rw [unqualified]
  by_cases hm : '.' ∈ name
  · obtain ⟨hname, hoffset⟩ := lastOffset?_of_splitLastPoint (if_pos hm)
    rw [hoffset]
    exact sliceBehind_eq hlimit rfl hname rfl
  · rw [lastOffset?_none hm, Literal.unqualified_eq hm]

theorem embeddedName_eq (t : TypeLiteral) :
    embeddedName t = (pure t.embeddedName : Checked m _) := by
  rw [embeddedName, TypeLiteral.embeddedName]
  simp only [textBefore_eq, map_pure]
  cases t.pointee with
  | named => rfl
  | shape s =>
    cases s with
    | basic b => cases b <;> rfl
    | _ => rfl

end

theorem splitTag_eq {entry : List Char} (hlimit : utf8Size entry < sizeLimit) :
    splitTag entry = ExceptT.lift (Literal.splitTag entry) := by
  rw [splitTag, trailingQuoted_eq hlimit, pure_bind, Literal.splitTag]
  cases tagStart? entry with
  | none => rfl
  | some k =>
    have hparts : entry = entry.take k ++ entry.drop k := (List.take_append_drop k entry).symm
    simp only [Option.map_some, sliceFrom_eq hparts rfl, sliceTo_eq hparts rfl, pure_bind, unquote_eq]
    cases Text.unquote (entry.drop k) <;> rfl

/-- The first word begins an entry, so that the entry can be cut behind it. -/
theorem sliceFrom_first {text rest tag name : List Char} {more : List (List Char)}
    (hs : Literal.splitTag (trim text) = .ok (rest, tag))
    (hp : Scan.splitParts .space rest = .ok (name :: more)) :
    sliceFrom rest (utf8Size name) =
      (pure (rest.drop name.length) : Checked (Except Error) (List Char)) := by
  have hne : rest ≠ [] := by
    rintro rfl
    cases hp
  obtain ⟨after, rfl⟩ : ∃ after, rest = name ++ after := by
    rcases exists_first_word (trimmed_of_splitTag hs (trim_trim text) hne) hp with
      ⟨hall, -⟩ | ⟨pad, v, hcut, -⟩
    · exact ⟨[], by rw [hall, List.append_nil]⟩
    · exact ⟨_, hcut⟩
  rw [List.drop_left]
  exact sliceFrom_eq rfl rfl

theorem fieldEntry_eq {text : List Char} (hlimit : utf8Size text < sizeLimit) :
    fieldEntry text = ExceptT.lift (Literal.fieldEntry text) := by
  have hentry := sizeLimit_of_isInfix (isInfix_trim text) hlimit
  rw [fieldEntry, splitTag_eq hentry, Literal.fieldEntry, lift_bind]
  cases hs : Literal.splitTag (trim text) with
  | error e => rfl
  | ok p =>
    obtain ⟨rest, tag⟩ := p
    have hrest : utf8Size rest < sizeLimit :=
      sizeLimit_of_isInfix (isPrefix_of_splitTag hs).isInfix hentry
    have hlift : (ExceptT.lift (.ok (rest, tag)) : Checked (Except Error) _) = pure (rest, tag) := rfl
    rw [hlift, pure_bind, pure_bind]
    simp only [splitParts_eq hrest]
    rw [lift_bind]
    cases hp : Scan.splitParts .space rest with
    | error e => rfl
    | ok parts =>
      have hlift : (ExceptT.lift (.ok parts) : Checked (Except Error) _) = pure parts := rfl
      rw [hlift, pure_bind, pure_bind]
      have hname {name : List Char} (hm : name ∈ parts) :
          unqualified name = (pure (Literal.unqualified name) : Checked (Except Error) _) :=
        unqualified_eq (sizeLimit_of_isInfix (isInfix_of_mem_splitParts hp hm) hrest)
      split
      · rfl
      · rfl
      · next name type =>
        simp only [hname (List.mem_cons_self ..), pure_bind]
        split <;> rfl
      · next name more hone hequals =>
        have hslice := sliceFrom_first hs hp
        simp only [hslice, hname (List.mem_cons_self ..), pure_bind]
        split <;> rfl

end TypeIdentity.Offsets
