/-! # UTF-8

Characters as bytes and back.  The decoder names the first fault: a sequence that no continuation
could mend, with the number of bytes that belong to it, or one that the text ends in the middle of.
-/
namespace TypeIdentity.Text

inductive Utf8Error
  | invalid (length index : Nat)
  | incomplete (index : Nat)
  deriving DecidableEq, Repr

def Utf8Error.message : Utf8Error → String
  | invalid length index =>
    "invalid utf-8 sequence of " ++ toString length ++ " bytes from index " ++ toString index
  | incomplete index => "incomplete utf-8 byte sequence from index " ++ toString index

def utf8Size : List Char → Nat
  | [] => 0
  | c :: rest => c.utf8Size + utf8Size rest

def utf8Encode (text : List Char) : List UInt8 := text.flatMap String.utf8EncodeChar

/-- Continuation bytes carry six bits. -/
def isTail (b : UInt8) : Bool := 0x80 ≤ b && b ≤ 0xBF

/-- Which byte may follow the first of three: the character is neither short nor a surrogate. -/
def isSecondOfThree (a b : UInt8) : Bool :=
  isTail b && (a != 0xE0 || 0xA0 ≤ b) && (a != 0xED || b ≤ 0x9F)

/-- Which byte may follow the first of four: the character is neither short nor too large. -/
def isSecondOfFour (a b : UInt8) : Bool :=
  isTail b && (a != 0xF0 || 0x90 ≤ b) && (a != 0xF4 || b ≤ 0x8F)

/-- The code point made of the low bits of a first byte and of its continuation bytes. -/
def joinBits (first : Nat) (tail : List UInt8) : Char :=
  Char.ofNat (tail.foldl (fun acc b => acc * 64 + (b.toNat - 0x80)) first)

def utf8DecodeFrom (index : Nat) : List UInt8 → Except Utf8Error (List Char)
  | [] => .ok []
  | a :: rest =>
    if a < 0x80 then (Char.ofNat a.toNat :: ·) <$> utf8DecodeFrom (index + 1) rest
    else if a < 0xC2 then .error (.invalid 1 index)
    else if a < 0xE0 then
      match rest with
      | [] => .error (.incomplete index)
      | b :: rest =>
        if isTail b then (joinBits (a.toNat - 0xC0) [b] :: ·) <$> utf8DecodeFrom (index + 2) rest
        else .error (.invalid 1 index)
    else if a < 0xF0 then
      match rest with
      | [] => .error (.incomplete index)
      | b :: rest =>
        if isSecondOfThree a b then
          match rest with
          | [] => .error (.incomplete index)
          | c :: rest =>
            if isTail c then
              (joinBits (a.toNat - 0xE0) [b, c] :: ·) <$> utf8DecodeFrom (index + 3) rest
            else .error (.invalid 2 index)
        else .error (.invalid 1 index)
    else if a < 0xF5 then
      match rest with
      | [] => .error (.incomplete index)
      | b :: rest =>
        if isSecondOfFour a b then
          match rest with
          | [] => .error (.incomplete index)
          | c :: rest =>
            if isTail c then
              match rest with
              | [] => .error (.incomplete index)
              | d :: rest =>
                if isTail d then
                  (joinBits (a.toNat - 0xF0) [b, c, d] :: ·) <$> utf8DecodeFrom (index + 4) rest
                else .error (.invalid 3 index)
            else .error (.invalid 2 index)
        else .error (.invalid 1 index)
    else .error (.invalid 1 index)

/-- The text that the bytes encode. -/
def utf8Decode (bytes : List UInt8) : Except Utf8Error (List Char) := utf8DecodeFrom 0 bytes

end TypeIdentity.Text
