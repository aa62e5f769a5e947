import TypeIdentity.Identifier
import TypeIdentity.Literal.FieldEntry
import TypeIdentity.Literal.Printer
import TypeIdentity.Literal.Reading
import TypeIdentity.Scan.Span

/-! # One level of the type grammar

`Head.of` tells from its first characters which kind of type an id denotes, and `level` reads that
level.  Every text it asks to have parsed is a proper part of the id.
-/
namespace TypeIdentity.Literal
open Text Scan

abbrev Within (n : Nat) := {text : List Char // text.length ≤ n}

abbrev Below (n : Nat) := {text : List Char // text.length < n}

/-- Which kind of type an id denotes, with the text after the words that tell it. -/
inductive Head (n : Nat)
  | sequence
  | map (rest : Within n)
  | chan (dir : Direction) (elem : Below n)
  | func (sig : Within n)
  | struct (block : Within n)
  | interface (block : Within n)
  | pointer (elem : Below n)
  | name

namespace Head

/-- The text after a leading word, if a given character comes next. -/
def opened? (lead : String) (c : Char) (id : List Char) : Option (Within id.length) :=
  match h : after? lead id with
  | none => none
  | some rest =>
    if rest.head? = some c then some ⟨rest, by have := length_of_after? h; omega⟩ else none

/-- The text after a leading word and the blanks that follow it, if a brace comes next. -/
def block? (keyword : String) (id : List Char) : Option (Within id.length) :=
  match h : after? keyword id with
  | none => none
  | some rest =>
    if (trimStart rest).head? = some '\x7b' then
      some ⟨trimStart rest, by
        have := length_of_after? h
        have := length_trimStart_le rest
        omega⟩
    else none

def chan? (id : List Char) : Option (Head id.length) :=
  match h : Direction.ofLead? id with
  | none => none
  | some (dir, elem) => some (chan dir ⟨elem, Direction.length_of_ofLead? h⟩)

def pointer? : (id : List Char) → Option (Head id.length)
  | '*' :: elem => some (pointer ⟨elem, by simp⟩)
  | _ => none

/-- Words are tried in order, and what begins with none of them is a name. -/
def of (id : List Char) : Head id.length :=
  ((opened? "" '[' id).map fun _ => sequence)
    <|> (opened? "map" '[' id).map map
    <|> chan? id
    <|> (opened? "func" '(' id).map func
    <|> (block? "struct" id).map struct
    <|> (block? "interface" id).map interface
    <|> pointer? id
    |>.getD name

end Head

variable {n : Nat}

def malformed {α : Type} (id : List Char) (flaw : Flaw) : Reading n α :=
  .fail (.malformed (String.ofList id) flaw)

/-- A bracketed span of a text that must have one; each piece is shorter than the text. -/
def span (kind : Bracket) (text : List Char) :
    Reading n {b : Span //
      b.before.length + b.inner.length + b.after.length + 2 = text.length} := do
  let ⟨b, h⟩ ← .lift (requireSpan kind text)
  return ⟨b, by have := congrArg List.length (requireSpan_eq_append h); simp at this; omega⟩

def parts (sep : Separator) (text : List Char) (h : text.length < n) :
    Reading n (List (Below n)) := do
  let ⟨ps, hp⟩ ← .lift (splitParts sep text)
  return ps.attachWith (·.length < n) fun _ hm =>
    Nat.lt_of_le_of_lt (length_le_of_mem_splitParts hp hm) h

def subs (texts : List (Below n)) : Reading n (List TypeLiteral) :=
  texts.mapM fun p => .sub p.1 p.2

/-- `[]T` or `[n]T`; the element is read before the length. -/
def readSequence (id : List Char) : Reading id.length TypeLiteral := do
  let ⟨b, hb⟩ ← span .square id
  if isBlankText b.after then malformed id .missingElement
  else
    let elem ← .sub b.after (by omega)
    match trim b.inner with
    | [] => return .shape (.slice elem)
    | length =>
      match readNumeral 10 wordBound length with
      | .ok n => return .shape (.array n.toUInt64 elem)
      | .error e => malformed id (.arrayLength (String.ofList length) e)

/-- `map[K]V`, from the bracket on. -/
def readMap (id : List Char) (rest : Within n) : Reading n TypeLiteral := do
  let ⟨b, hb⟩ ← span .square rest.1
  have := rest.2
  if isBlankText b.inner || isBlankText b.after then malformed id .incompleteMap
  else return .shape (.map (← .sub b.inner (by omega)) (← .sub b.after (by omega)))

/-- The element of a channel, which may stand in parentheses. -/
def readChan (id : List Char) (dir : Direction) (elem : Below n) : Reading n TypeLiteral := do
  have h := elem.2
  let text := trim elem.1
  have ht : text.length ≤ elem.1.length := length_trim_le elem.1
  if text.head? = some '(' then
    let ⟨b, hb⟩ ← span .round text
    if b.after ≠ [] then malformed id .afterChanElement
    else return .shape (.chan dir (← .sub b.inner (by omega)))
  else return .shape (.chan dir (← .sub text (by omega)))

def readParam (id : List Char) (p : Below n) : Reading n TypeLiteral :=
  if (after? "..." p.1).isSome then malformed id .innerEllipsis else .sub p.1 p.2

/-- The last parameter, which may begin with an ellipsis. -/
def readLastParam (p : Below n) : Reading n (TypeLiteral × Bool) :=
  match h : after? "..." p.1 with
  | none => return (← .sub p.1 p.2, false)
  | some elem => do
    let elem ← .sub elem (by have := length_of_after? h; have := p.2; omega)
    return (← .share (.shape (.slice elem)) .done, true)

/-- Parameters in order, and whether the last one begins with an ellipsis. -/
def readParams (id : List Char) (ps : List (Below n)) : Reading n (List TypeLiteral × Bool) := do
  let before ← ps.dropLast.mapM (readParam id)
  match ps.getLast? with
  | none => return ([], false)
  | some p =>
    let (last, variadic) ← readLastParam p
    return (before ++ [last], variadic)

def readResults (id text : List Char) (h : text.length < n) : Reading n (List TypeLiteral) := do
  if text.head? = some '(' then
    let ⟨b, hb⟩ ← span .round text
    if b.after ≠ [] then malformed id .afterResults
    else subs (← parts .comma b.inner (by omega))
  else if text = [] then return []
  else return [← .sub text h]

/-- Parameters and results, from the parenthesis on. -/
def readSignature (id : List Char) (sig : Within n) : Reading n (Signature TypeLiteral) := do
  let ⟨b, hb⟩ ← span .round sig.1
  have := sig.2
  if b.before ≠ [] then malformed id .detachedParameters
  else
    let (ins, variadic) ← readParams id (← parts .comma b.inner (by omega))
    let outs ← readResults id (trim b.after) (by have := length_trim_le b.after; omega)
    return ⟨ins, outs, variadic⟩

/-- The inside of a block that must end the id. -/
def insideBlock (id : List Char) (keyword : String) (block : Within n) :
    Reading n (Below n) := do
  let ⟨b, hb⟩ ← span .curly block.1
  if b.after ≠ [] then malformed id (.afterBody keyword)
  else return ⟨b.inner, by have := block.2; omega⟩

/-- One field of a struct; without a name it is called after the type it embeds. -/
def readField (id : List Char) (entry : Below n) :
    Reading n (Field TypeLiteral) := do
  let ⟨e, he⟩ ← .lift (fieldEntry entry.1)
  let type ← .sub e.type (by have := length_fieldEntry_type_le he; have := entry.2; omega)
  let name := match e.name with
    | some name => name
    | none => type.embeddedName.toList
  if isIdentifier name then return ⟨String.ofList name, type, String.ofList e.tag, e.embedded⟩
  else malformed id (.fieldName (String.ofList name))

/-- One method of an interface; what is no method has no place in a resolved type. -/
def readMethod (entry : Below n) : Reading n (Method TypeLiteral) := do
  let name := entry.1.takeWhile (· ≠ '(')
  let sig := entry.1.dropWhile (· ≠ '(')
  if sig = [] ∨ !isIdentifier name then
    .fail (.unsupported (.interfaceElement (String.ofList entry.1)))
  else
    have h : sig.length ≤ n :=
      Nat.le_trans (List.dropWhile_sublist _).length_le (Nat.le_of_lt entry.2)
    return ⟨String.ofList name, ← readSignature entry.1 ⟨sig, h⟩⟩

/-- A name without a point is predeclared, a keyword, or a type parameter. -/
def readIdent (id : List Char) : Reading n TypeLiteral :=
  let name := String.ofList id
  match BasicType.ofName? name with
  | some b => .done (.shape (.basic b))
  | none =>
    if name = "error" then .done .error
    else if name = "any" then .done .any
    else if name ∈ ["chan", "map", "func", "struct", "interface"] then malformed id .bareKeyword
    else if isIdentifier id then .fail (.unsupported (.unresolvedParameter name))
    else malformed id .unexpectedToken

def splitLastPoint (text : List Char) : Option (List Char × List Char) :=
  let last := unqualified text
  if '.' ∈ text then some (text.take (text.length - last.length - 1), last) else none

/-- The base of a named type and the text of its type arguments. -/
def splitTypeArgs (id : List Char) :
    Reading id.length (List Char × Option (Below id.length)) := do
  match ← .lift (firstSpan .square id) with
  | ⟨none, _⟩ => return (id, none)
  | ⟨some b, h⟩ =>
    if b.after ≠ [] then malformed id .afterTypeArguments
    else
      have := congrArg List.length (firstSpan_eq_append h)
      return (b.before, some ⟨b.inner, by simp at this; omega⟩)

/-- A qualified name with its type arguments, or a name without a point. -/
def readName (id : List Char) : Reading id.length TypeLiteral := do
  let (base, args) ← splitTypeArgs id
  match splitLastPoint base with
  | none => if args.isSome then malformed id .unqualifiedGeneric else readIdent id
  | some (path, name) =>
    if path = [] ∨ !isIdentifier name then malformed id .notQualified
    else
      let path ← .decodePath (String.ofList path) .done
      match args with
      | none =>
        if path = "unsafe" ∧ String.ofList name = "Pointer" then
          return .shape (.basic .unsafePointer)
        else return .named path (String.ofList name) []
      | some args =>
        match ← subs (← parts .comma args.1 args.2) with
        | [] => malformed id .noTypeArguments
        | args => return .named path (String.ofList name) args

/-- Reads one level of a type id that begins and ends without blanks. -/
def level (id : List Char) : Reading id.length TypeLiteral :=
  match Head.of id with
  | .sequence => readSequence id
  | .map rest => readMap id rest
  | .chan dir elem => readChan id dir elem
  | .func sig => return .shape (.func (← readSignature id sig))
  | .struct block => do
    let body ← insideBlock id "struct" block
    return .shape (.struct (← (← parts .semicolon body.1 body.2).mapM (readField id)))
  | .interface block => do
    let body ← insideBlock id "interface" block
    return .shape (.interface (← (← parts .semicolon body.1 body.2).mapM readMethod))
  | .pointer elem => return .shape (.pointer (← .sub elem.1 elem.2))
  | .name => readName id

end TypeIdentity.Literal
