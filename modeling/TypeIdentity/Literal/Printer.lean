import TypeIdentity.Literal.Basic
import TypeIdentity.Text.Quoted

/-! # Printing literals

All renderings print the same text around the package paths and differ only in how they spell a
path, so the printer takes the spelling as a parameter.  `canonical` keeps the paths as they are.
The text of a literal is defined by `write` as the texts of its components put together; `append`
puts that text at the end of another one, and so walks it only once.
-/
namespace TypeIdentity.TypeLiteral
open Text

mutual

/-- The text of a literal, with every package path respelled. -/
def write (spell : String → String) : TypeLiteral → List Char
  | shape (.basic b) => b.name.toList
  | shape (.array n e) => '[' :: Nat.toDigits 10 n.toNat ++ ']' :: write spell e
  | shape (.slice e) => '[' :: ']' :: write spell e
  | shape (.map k e) => "map[".toList ++ write spell k ++ ']' :: write spell e
  | shape (.chan d e) =>
    -- the bare arrow would be taken for the direction of the outer channel
    if d = .both ∧ e.direction? = some .recv then d.lead.toList ++ '(' :: write spell e ++ [')']
    else d.lead.toList ++ write spell e
  | shape (.func s) => "func".toList ++ writeSignature spell s
  | shape (.struct []) => "struct \x7b\x7d".toList
  | shape (.struct fs) => "struct \x7b ".toList ++ writeFields spell fs ++ " \x7d".toList
  | shape (.interface []) => "interface \x7b\x7d".toList
  | shape (.interface ms) => "interface \x7b ".toList ++ writeMethods spell ms ++ " \x7d".toList
  | shape (.pointer e) => '*' :: write spell e
  | named path name args =>
    (if path = "" then [] else (spell path).toList ++ ['.']) ++ name.toList ++
      match args with
      | [] => []
      | a :: rest => '[' :: writeList spell ",".toList (a :: rest) ++ [']']

/-- Parameters and results as they stand after `func` or after a method name. -/
def writeSignature (spell : String → String) : Signature TypeLiteral → List Char
  | ⟨ins, outs, variadic⟩ => '(' :: writeParams spell variadic ins ++ ')' :: writeResults spell outs

/-- Parameters; the last one of a variadic signature shows an ellipsis and its element type. -/
def writeParams (spell : String → String) (variadic : Bool) : List TypeLiteral → List Char
  | [] => []
  | [shape (.slice e)] =>
    if variadic then "...".toList ++ write spell e else '[' :: ']' :: write spell e
  | [t] => write spell t
  | t :: rest => write spell t ++ ", ".toList ++ writeParams spell variadic rest

/-- Results; a single one needs no parentheses. -/
def writeResults (spell : String → String) : List TypeLiteral → List Char
  | [] => []
  | [t] => ' ' :: write spell t
  | t :: rest => " (".toList ++ writeList spell ", ".toList (t :: rest) ++ [')']

def writeList (spell : String → String) (sep : List Char) : List TypeLiteral → List Char
  | [] => []
  | [t] => write spell t
  | t :: rest => write spell t ++ sep ++ writeList spell sep rest

/-- One field: its name unless it is embedded, its type, and its tag if it has one. -/
def writeField (spell : String → String) : Field TypeLiteral → List Char
  | ⟨name, type, tag, embedded⟩ =>
    (if embedded then [] else name.toList ++ [' ']) ++ write spell type ++
      if tag = "" then [] else ' ' :: quote tag.toList

def writeFields (spell : String → String) : List (Field TypeLiteral) → List Char
  | [] => []
  | [f] => writeField spell f
  | f :: rest => writeField spell f ++ "; ".toList ++ writeFields spell rest

def writeMethod (spell : String → String) : Method TypeLiteral → List Char
  | ⟨name, signature⟩ => name.toList ++ writeSignature spell signature

def writeMethods (spell : String → String) : List (Method TypeLiteral) → List Char
  | [] => []
  | [m] => writeMethod spell m
  | m :: rest => writeMethod spell m ++ "; ".toList ++ writeMethods spell rest

end

/-! ## Printing in one walk -/

mutual

def append (spell : String → String) (text : String) : TypeLiteral → String
  | shape (.basic b) => text ++ b.name
  | shape (.array n e) => append spell (text ++ "[" ++ toString n.toNat ++ "]") e
  | shape (.slice e) => append spell (text ++ "[]") e
  | shape (.map k e) => append spell (append spell (text ++ "map[") k ++ "]") e
  | shape (.chan d e) =>
    if d = .both ∧ e.direction? = some .recv then append spell (text ++ d.lead ++ "(") e ++ ")"
    else append spell (text ++ d.lead) e
  | shape (.func s) => appendSignature spell (text ++ "func") s
  | shape (.struct []) => text ++ "struct \x7b\x7d"
  | shape (.struct fs) => appendFields spell (text ++ "struct \x7b ") fs ++ " \x7d"
  | shape (.interface []) => text ++ "interface \x7b\x7d"
  | shape (.interface ms) => appendMethods spell (text ++ "interface \x7b ") ms ++ " \x7d"
  | shape (.pointer e) => append spell (text ++ "*") e
  | named path name args =>
    let text := (if path = "" then text else text ++ spell path ++ ".") ++ name
    match args with
    | [] => text
    | a :: rest => appendRest spell "," (append spell (text ++ "[") a) rest ++ "]"

def appendSignature (spell : String → String) (text : String) : Signature TypeLiteral → String
  | ⟨ins, outs, variadic⟩ =>
    appendResults spell (appendParams spell variadic (text ++ "(") ins ++ ")") outs

def appendParams (spell : String → String) (variadic : Bool) (text : String) :
    List TypeLiteral → String
  | [] => text
  | [shape (.slice e)] => append spell (text ++ if variadic then "..." else "[]") e
  | [t] => append spell text t
  | t :: rest => appendParams spell variadic (append spell text t ++ ", ") rest

def appendResults (spell : String → String) (text : String) : List TypeLiteral → String
  | [] => text
  | [t] => append spell (text ++ " ") t
  | t :: rest => appendRest spell ", " (append spell (text ++ " (") t) rest ++ ")"

/-- The members of a list after the first one, each with the separator before it. -/
def appendRest (spell : String → String) (sep text : String) : List TypeLiteral → String
  | [] => text
  | t :: rest => appendRest spell sep (append spell (text ++ sep) t) rest

def appendField (spell : String → String) (text : String) : Field TypeLiteral → String
  | ⟨name, type, tag, embedded⟩ =>
    let text := append spell (if embedded then text else text ++ name ++ " ") type
    if tag = "" then text else text ++ " " ++ String.ofList (quote tag.toList)

def appendFields (spell : String → String) (text : String) : List (Field TypeLiteral) → String
  | [] => text
  | [f] => appendField spell text f
  | f :: rest => appendFields spell (appendField spell text f ++ "; ") rest

def appendMethod (spell : String → String) (text : String) : Method TypeLiteral → String
  | ⟨name, signature⟩ => appendSignature spell (text ++ name) signature

def appendMethods (spell : String → String) (text : String) : List (Method TypeLiteral) → String
  | [] => text
  | [m] => appendMethod spell text m
  | m :: rest => appendMethods spell (appendMethod spell text m ++ "; ") rest

end

mutual

theorem toList_append (spell : String → String) (text : String) :
    ∀ t : TypeLiteral, (t.append spell text).toList = text.toList ++ t.write spell
  | shape (.basic b) => by simp [append, write]
  | shape (.array n e) => by simp [append, write, toList_append spell _ e]
  | shape (.slice e) => by simp [append, write, toList_append spell _ e]
  | shape (.map k e) => by simp [append, write, toList_append spell _ k, toList_append spell _ e]
  | shape (.chan d e) => by
    simp only [append, write]
    split <;> simp [toList_append spell _ e]
  | shape (.func s) => by simp [append, write, toList_appendSignature spell _ s]
  | shape (.struct []) => by simp [append, write]
  | shape (.struct (f :: fs)) => by simp [append, write, toList_appendFields spell _ (f :: fs)]
  | shape (.interface []) => by simp [append, write]
  | shape (.interface (m :: ms)) => by
    simp [append, write, toList_appendMethods spell _ (m :: ms)]
  | shape (.pointer e) => by simp [append, write, toList_append spell _ e]
  | named path name [] => by
    simp only [append, write]
    split <;> simp
  | named path name (a :: rest) => by
    simp only [append, write]
    split <;> simp [toList_appendRest spell _ _ a rest]
termination_by t => (sizeOf t, 0)

theorem toList_appendSignature (spell : String → String) (text : String) :
    ∀ s : Signature TypeLiteral,
      (appendSignature spell text s).toList = text.toList ++ writeSignature spell s
  | ⟨ins, outs, variadic⟩ => by
    simp [appendSignature, writeSignature, toList_appendResults spell _ outs,
      toList_appendParams spell variadic _ ins]
termination_by s => (sizeOf s, 0)

theorem toList_appendParams (spell : String → String) (variadic : Bool) (text : String) :
    ∀ ins : List TypeLiteral,
      (appendParams spell variadic text ins).toList = text.toList ++ writeParams spell variadic ins
  | [] => by simp [appendParams, writeParams]
  | [named path name args] => by
    simpa [appendParams, writeParams] using toList_append spell text (named path name args)
  | [shape s] => by
    have hs := toList_append spell text (shape s)
    cases s with
    | slice e => cases variadic <;> simp [appendParams, writeParams, toList_append spell _ e]
    | _ => simpa [appendParams, writeParams] using hs
  | t :: u :: rest => by
    simp [appendParams, writeParams, toList_append spell _ t,
      toList_appendParams spell variadic _ (u :: rest)]
termination_by ins => (sizeOf ins, 0)

theorem toList_appendResults (spell : String → String) (text : String) :
    ∀ outs : List TypeLiteral,
      (appendResults spell text outs).toList = text.toList ++ writeResults spell outs
  | [] => by simp [appendResults, writeResults]
  | [t] => by simp [appendResults, writeResults, toList_append spell _ t]
  | t :: u :: rest => by
    simp [appendResults, writeResults, toList_appendRest spell _ _ t (u :: rest)]
termination_by outs => (sizeOf outs, 1)

theorem toList_appendRest (spell : String → String) (sep text : String) :
    ∀ (t : TypeLiteral) (rest : List TypeLiteral),
      (appendRest spell sep (t.append spell text) rest).toList =
        text.toList ++ writeList spell sep.toList (t :: rest)
  | t, [] => by simp [appendRest, writeList, toList_append spell _ t]
  | t, u :: rest => by
    simp [appendRest, writeList, toList_append spell _ t,
      toList_appendRest spell sep (t.append spell text ++ sep) u rest]
termination_by t rest => (sizeOf (t :: rest), 0)

theorem toList_appendField (spell : String → String) (text : String) :
    ∀ f : Field TypeLiteral,
      (appendField spell text f).toList = text.toList ++ writeField spell f
  | ⟨name, type, tag, embedded⟩ => by
    simp only [appendField, writeField]
    split <;> split <;> simp [toList_append spell _ type]
termination_by f => (sizeOf f, 0)

theorem toList_appendFields (spell : String → String) (text : String) :
    ∀ fs : List (Field TypeLiteral),
      (appendFields spell text fs).toList = text.toList ++ writeFields spell fs
  | [] => by simp [appendFields, writeFields]
  | [f] => by simp [appendFields, writeFields, toList_appendField spell _ f]
  | f :: g :: rest => by
    simp [appendFields, writeFields, toList_appendField spell _ f,
      toList_appendFields spell _ (g :: rest)]
termination_by fs => (sizeOf fs, 0)

theorem toList_appendMethod (spell : String → String) (text : String) :
    ∀ m : Method TypeLiteral,
      (appendMethod spell text m).toList = text.toList ++ writeMethod spell m
  | ⟨name, signature⟩ => by
    simp [appendMethod, writeMethod, toList_appendSignature spell _ signature]
termination_by m => (sizeOf m, 0)

theorem toList_appendMethods (spell : String → String) (text : String) :
    ∀ ms : List (Method TypeLiteral),
      (appendMethods spell text ms).toList = text.toList ++ writeMethods spell ms
  | [] => by simp [appendMethods, writeMethods]
  | [m] => by simp [appendMethods, writeMethods, toList_appendMethod spell _ m]
  | m :: n :: rest => by
    simp [appendMethods, writeMethods, toList_appendMethod spell _ m,
      toList_appendMethods spell _ (n :: rest)]
termination_by ms => (sizeOf ms, 0)

end

def render (spell : String → String) (t : TypeLiteral) : String := t.append spell ""

theorem render_eq (spell : String → String) (t : TypeLiteral) :
    t.render spell = String.ofList (t.write spell) := by
  rw [render, ← String.ofList_toList (s := t.append spell ""), toList_append]
  rfl

/-- The rendering that keeps package paths as they are. -/
def canonical (t : TypeLiteral) : String := t.render id

/-- Declared name with type arguments; empty for an unnamed composite type. -/
def name : TypeLiteral → String
  | shape (.basic b) => b.name
  | shape _ => ""
  | named _ name [] => name
  | named _ name args => name ++ "[" ++ ",".intercalate (args.map canonical) ++ "]"

/-- The name under which a field that embeds the type is promoted. -/
def embeddedName (t : TypeLiteral) : String :=
  match t.pointee with
  | named _ name _ => name
  | shape (.basic .unsafePointer) => "Pointer"
  | t => String.ofList (t.canonical.toList.takeWhile (· ≠ '['))

end TypeIdentity.TypeLiteral
