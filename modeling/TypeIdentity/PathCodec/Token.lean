import TypeIdentity.Text.Escaped
import TypeIdentity.Text.Numeral

/-! # Path tokens

A token spells a package path with letters, digits and underscores only: an underscore opens and
closes an escape for every other character.  Reading accepts every hexadecimal escape of a
character, also one that writing would not choose.
-/
namespace TypeIdentity.PathCodec

/-- What marks an identifier as the token of a path. -/
def tokenMark : String := "xwrap_"

/-- Why the text after the mark spells no path. -/
inductive TokenError
  | unterminated (rest : String)
  | unknownEscape (code : String)
  deriving DecidableEq, Repr

def TokenError.message : TokenError → String
  | unterminated rest => "unterminated escape at " ++ Text.shown rest
  | unknownEscape code => "unknown escape '_" ++ code ++ "_'"

/-- One character of a path as it is spelled in a token. -/
def encodeChar (c : Char) : List Char :=
  if c.isAlphanum then [c]
  else if c = '_' then ['_', 'u', '_']
  else if c = '.' then ['_', 'd', '_']
  else if c = '/' then ['_', 's', '_']
  else ['_', 'x'] ++ Nat.toDigits 16 c.toNat ++ ['_']

/-- The token of a path. -/
def encode (path : List Char) : List Char := tokenMark.toList ++ path.flatMap encodeChar

/-- The character that the text between two underscores stands for. -/
def escapedChar? : List Char → Option Char
  | ['u'] => some '_'
  | ['d'] => some '.'
  | ['s'] => some '/'
  | 'x' :: hex =>
    match Text.readNumeral 16 UInt32.size hex with
    | .ok n => if n.isValidChar then some (Char.ofNat n) else none
    | .error _ => none
  | _ => none

/-- The path that the text after the mark spells. -/
def decode : List Char → Except TokenError (List Char)
  | [] => .ok []
  | '_' :: rest =>
    let code := rest.takeWhile (· ≠ '_')
    match _h : rest.dropWhile (· ≠ '_') with
    | [] => .error (.unterminated (String.ofList ('_' :: rest)))
    | _ :: after =>
      match escapedChar? code with
      | none => .error (.unknownEscape (String.ofList code))
      | some c => (c :: ·) <$> decode after
  | c :: rest => (c :: ·) <$> decode rest
termination_by text => text.length
decreasing_by
  · have := (List.dropWhile_sublist (l := rest) (· ≠ '_')).length_le
    rw [_h] at this
    simp at this ⊢; omega
  · simp

end TypeIdentity.PathCodec
