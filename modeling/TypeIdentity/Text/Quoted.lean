import TypeIdentity.Text.Escaped
import TypeIdentity.Text.Numeral
import TypeIdentity.Text.Utf8

/-! # Quoted strings

Struct tags are written as double-quoted strings.  Writing escapes the quote, the backslash and the
control characters and keeps everything else.  Reading knows more escapes: they denote bytes, which
together must be UTF-8, and a raw string between back quotes stands for itself.
-/
namespace TypeIdentity.Text

inductive QuoteError
  | backQuoteInside
  | notQuoted (text : String)
  | bareQuote (offset : Nat)
  | newline
  | trailingBackslash
  | missingDigits (count radix : Nat)
  | octalTooLarge (value : Nat)
  | invalidCodePoint (value : Nat)
  | unknownEscape (escape : Char)
  | notUtf8 (fault : Utf8Error)
  deriving DecidableEq, Repr

def QuoteError.message : QuoteError → String
  | backQuoteInside => "back quote inside raw string"
  | notQuoted text => shown text ++ " is not a quoted string"
  | bareQuote offset => "unescaped quote at offset " ++ toString offset
  | newline => "newline in quoted string"
  | trailingBackslash => "trailing backslash"
  | missingDigits count radix =>
    "expected " ++ toString count ++ " base-" ++ toString radix ++ " digits"
  | octalTooLarge value => "octal escape \\" ++ String.ofList (digits 8 1 value) ++ " out of range"
  | invalidCodePoint value => "invalid code point 0x" ++ String.ofList (digits 16 1 value)
  | unknownEscape escape => "unknown escape \\" ++ escape.toString
  | notUtf8 fault => "escaped bytes are not utf-8: " ++ fault.message

/-- Controls of either block, which have no single-letter escape of their own. -/
def isControl (c : Char) : Bool := c.toNat < 0x20 || (0x7F ≤ c.toNat && c.toNat < 0xA0)

def quoteChar (c : Char) : List Char :=
  if c = '"' then ['\\', '"']
  else if c = '\\' then ['\\', '\\']
  else if c = '\x07' then ['\\', 'a']
  else if c = '\x08' then ['\\', 'b']
  else if c = '\x0c' then ['\\', 'f']
  else if c = '\n' then ['\\', 'n']
  else if c = '\r' then ['\\', 'r']
  else if c = '\t' then ['\\', 't']
  else if c = '\x0b' then ['\\', 'v']
  else if !isControl c then [c]
  else if c.toNat < 0x80 then ['\\', 'x'] ++ digits 16 2 c.toNat
  else ['\\', 'u'] ++ digits 16 4 c.toNat

def quote (text : List Char) : List Char := '"' :: text.flatMap quoteChar ++ ['"']

/-- The byte for which a single-letter escape stands. -/
def letterEscape? : Char → Option UInt8
  | 'a' => some 0x07
  | 'b' => some 0x08
  | 'f' => some 0x0C
  | 'n' => some 0x0A
  | 'r' => some 0x0D
  | 't' => some 0x09
  | 'v' => some 0x0B
  | '\\' => some 0x5C
  | '"' => some 0x22
  | '\'' => some 0x27
  | _ => none

/-- The value of the first `count` characters, each of which must be a digit. -/
def readEscapeDigits (count radix : Nat) (text : List Char) : Except QuoteError Nat :=
  match (text.take count).mapM (digitValue? radix) with
  | none => .error (.missingDigits count radix)
  | some ds =>
    if ds.length = count then .ok (ds.foldl (fun acc d => acc * radix + d) 0)
    else .error (.missingDigits count radix)

/-- The bytes that an escape stands for, and how many characters after its letter belong to it. -/
def readEscape (letter : Char) (rest : List Char) : Except QuoteError (List UInt8 × Nat) :=
  match letterEscape? letter with
  | some byte => .ok ([byte], 0)
  | none =>
    if letter = 'x' then do
      return ([(← readEscapeDigits 2 16 rest).toUInt8], 2)
    else if letter = 'u' ∨ letter = 'U' then do
      let width := if letter = 'u' then 4 else 8
      let value ← readEscapeDigits width 16 rest
      if value.isValidChar then return (utf8Encode [Char.ofNat value], width)
      else throw (.invalidCodePoint value)
    else match digitValue? 8 letter with
      | none => .error (.unknownEscape letter)
      | some high => do
        let value := high * 64 + (← readEscapeDigits 2 8 rest)
        if value < 256 then return ([value.toUInt8], 2) else throw (.octalTooLarge value)

/-- The bytes that the inside of a quoted string stands for, from the given offset on. -/
def unquoteBytes (offset : Nat) : List Char → Except QuoteError (List UInt8)
  | [] => .ok []
  | '"' :: _ => .error (.bareQuote offset)
  | '\n' :: _ => .error .newline
  | ['\\'] => .error .trailingBackslash
  | '\\' :: letter :: rest => do
    let (bytes, width) ← readEscape letter rest
    let size := 1 + letter.utf8Size + utf8Size (rest.take width)
    return bytes ++ (← unquoteBytes (offset + size) (rest.drop width))
  | c :: rest => do return String.utf8EncodeChar c ++ (← unquoteBytes (offset + c.utf8Size) rest)
termination_by text => text.length
decreasing_by
  · simp; omega
  · simp

/-- The inside of a text between two marks. -/
def inside? (mark : Char) : List Char → Option (List Char)
  | [] => none
  | c :: rest => if c = mark ∧ rest.getLast? = some mark then some rest.dropLast else none

/-- The text for which a quoted or raw string stands. -/
def unquote (text : List Char) : Except QuoteError (List Char) :=
  match inside? '\x60' text with
  | some raw => if '\x60' ∈ raw then .error .backQuoteInside else .ok (raw.filter (· ≠ '\r'))
  | none =>
    match inside? '"' text with
    | none => .error (.notQuoted (String.ofList text))
    | some body => do
      match utf8Decode (← unquoteBytes 0 body) with
      | .ok cs => return cs
      | .error fault => throw (.notUtf8 fault)

end TypeIdentity.Text
