import TypeIdentity.Literal.Level
import TypeIdentity.Proofs.Offsets.Entries
import TypeIdentity.Proofs.Offsets.Spans

/-! # Levels read by offsets

One level of the grammar as it is read off the bytes of an id.  Behind a bracket the text is cut by
the offset of the bracket, and whether anything is left there is told by comparing offsets.  Every
text that is to be parsed must be shorter than the id, in characters as in bytes.
-/
namespace TypeIdentity.Offsets
open Text Scan Literal

/-- Whether the closing bracket of a span is the last character of the text. -/
def endsText {m : Type → Type} [Monad m] (text : List Char) (b : OffsetSpan) : Checked m Bool := do
  return b.stop = (← sub (utf8Size text) 1)

variable {n : Nat} {α : Type}

def reading (x : Checked (Except Error) α) : Checked (Reading n) α :=
  match x.run with
  | .ok result => Reading.done result
  | .error e => Reading.fail e

def malformed (id : List Char) (flaw : Flaw) : Checked (Reading n) α :=
  ExceptT.lift (Literal.malformed id flaw)

def unsupported (category : Unsupported) : Checked (Reading n) α :=
  ExceptT.lift (.fail (.unsupported category))

/-- Asks for the literal of a text that must be shorter than the id whose level is read. -/
def ask (whole text : List Char) : Checked (Reading whole.length) TypeLiteral :=
  if h : utf8Size text < utf8Size whole ∧ text.length < whole.length then
    ExceptT.lift (.sub text h.2)
  else throw .notShorter

/-- `[]T` or `[n]T`; the element is read before the length. -/
def readSequence (id : List Char) : Checked (Reading id.length) TypeLiteral := do
  let b ← reading (requireSpan .square id)
  let after ← sliceBehind id b.stop
  if isBlankText after then malformed id .missingElement
  else
    let elem ← ask id after
    match trim b.inner with
    | [] => return .shape (.slice elem)
    | length =>
      match readNumeral 10 wordBound length with
      | .ok n => return .shape (.array n.toUInt64 elem)
      | .error e => malformed id (.arrayLength (String.ofList length) e)

/-- `map[K]V`, from the bracket on. -/
def readMap (id rest : List Char) : Checked (Reading id.length) TypeLiteral := do
  let b ← reading (requireSpan .square rest)
  let after ← sliceBehind rest b.stop
  if isBlankText b.inner || isBlankText after then malformed id .incompleteMap
  else return .shape (.map (← ask id b.inner) (← ask id after))

/-- The element of a channel, which may stand in parentheses. -/
def readChan (id : List Char) (dir : Direction) (elem : List Char) :
    Checked (Reading id.length) TypeLiteral := do
  let text := trim elem
  if text.head? = some '(' then
    let b ← reading (requireSpan .round text)
    if ← endsText text b then return .shape (.chan dir (← ask id b.inner))
    else malformed id .afterChanElement
  else return .shape (.chan dir (← ask id text))

section
variable (whole id : List Char)

def readParam (p : List Char) : Checked (Reading whole.length) TypeLiteral :=
  if (after? "..." p).isSome then malformed id .innerEllipsis else ask whole p

/-- The last parameter, which may begin with an ellipsis. -/
def readLastParam (p : List Char) : Checked (Reading whole.length) (TypeLiteral × Bool) :=
  match after? "..." p with
  | none => return (← ask whole p, false)
  | some elem => do
    let elem ← ask whole elem
    return (← ExceptT.lift (.share (.shape (.slice elem)) .done), true)

/-- Parameters in order, and whether the last one begins with an ellipsis. -/
def readParams (ps : List (List Char)) :
    Checked (Reading whole.length) (List TypeLiteral × Bool) := do
  let before ← ps.dropLast.mapM (readParam whole id)
  match ps.getLast? with
  | none => return ([], false)
  | some p =>
    let (last, variadic) ← readLastParam whole p
    return (before ++ [last], variadic)

def readResults (text : List Char) : Checked (Reading whole.length) (List TypeLiteral) := do
  if text.head? = some '(' then
    let b ← reading (requireSpan .round text)
    if ← endsText text b then (← reading (splitParts .comma b.inner)).mapM (ask whole)
    else malformed id .afterResults
  else if text = [] then return []
  else return [← ask whole text]

/-- Parameters and results, from the parenthesis on. -/
def readSignature (sig : List Char) : Checked (Reading whole.length) (Signature TypeLiteral) := do
  let b ← reading (requireSpan .round sig)
  if b.start ≠ 0 then malformed id .detachedParameters
  else
    let (ins, variadic) ← readParams whole id (← reading (splitParts .comma b.inner))
    let outs ← readResults whole id (trim (← sliceBehind sig b.stop))
    return ⟨ins, outs, variadic⟩

end

/-- The inside of a block that must end the id. -/
def insideBlock (id : List Char) (keyword : String) (block : List Char) :
    Checked (Reading id.length) (List Char) := do
  let b ← reading (requireSpan .curly block)
  if ← endsText block b then return b.inner else malformed id (.afterBody keyword)

/-- One field of a struct; without a name it is called after the type it embeds. -/
def readField (id entry : List Char) : Checked (Reading id.length) (Field TypeLiteral) := do
  let e ← reading (fieldEntry entry)
  let type ← ask id e.type
  let name ← match e.name with
    | some name => pure name
    | none => String.toList <$> embeddedName type
  if isIdentifier name then return ⟨String.ofList name, type, String.ofList e.tag, e.embedded⟩
  else malformed id (.fieldName (String.ofList name))

/-- One method of an interface; what is no method has no place in a resolved type. -/
def readMethod (id entry : List Char) : Checked (Reading id.length) (Method TypeLiteral) :=
  match firstOffset? '(' entry with
  | none => unsupported (.interfaceElement (String.ofList entry))
  | some i => do
    let name ← sliceTo entry i
    if isIdentifier name then
      return ⟨String.ofList name, ← readSignature id entry (← sliceFrom entry i)⟩
    else unsupported (.interfaceElement (String.ofList entry))

/-- The base of a named type and the text of its type arguments. -/
def splitTypeArgs (id : List Char) :
    Checked (Reading id.length) (List Char × Option (List Char)) := do
  match ← reading (firstSpan .square id) with
  | none => return (id, none)
  | some b =>
    if ← endsText id b then return (← sliceTo id b.start, some b.inner)
    else malformed id .afterTypeArguments

/-- A text cut at its last point. -/
def splitLastPoint (text : List Char) : Checked (Reading n) (Option (List Char × List Char)) :=
  match lastOffset? '.' text with
  | none => return none
  | some i => return some (← sliceTo text i, ← sliceBehind text i)

/-- A qualified name with its type arguments, or a name without a point. -/
def readName (id : List Char) : Checked (Reading id.length) TypeLiteral := do
  let (base, args) ← splitTypeArgs id
  match ← splitLastPoint base with
  | none =>
    if args.isSome then malformed id .unqualifiedGeneric else ExceptT.lift (readIdent id)
  | some (path, name) =>
    if path = [] ∨ !isIdentifier name then malformed id .notQualified
    else
      let path ← ExceptT.lift (.decodePath (String.ofList path) .done)
      match args with
      | none =>
        if path = "unsafe" ∧ String.ofList name = "Pointer" then
          return .shape (.basic .unsafePointer)
        else return .named path (String.ofList name) []
      | some args =>
        match ← (← reading (splitParts .comma args)).mapM (ask id) with
        | [] => malformed id .noTypeArguments
        | args => return .named path (String.ofList name) args

/-- Reads one level of a type id that begins and ends without blanks. -/
def level (id : List Char) : Checked (Reading id.length) TypeLiteral :=
  match Head.of id with
  | .sequence => readSequence id
  | .map rest => readMap id rest.1
  | .chan dir elem => readChan id dir elem.1
  | .func sig => return .shape (.func (← readSignature id id sig.1))
  | .struct block => do
    let body ← insideBlock id "struct" block.1
    return .shape (.struct (← (← reading (splitParts .semicolon body)).mapM (readField id)))
  | .interface block => do
    let body ← insideBlock id "interface" block.1
    return .shape (.interface (← (← reading (splitParts .semicolon body)).mapM (readMethod id)))
  | .pointer elem => return .shape (.pointer (← ask id elem.1))
  | .name => readName id

end TypeIdentity.Offsets
