import Std.Data.HashMap
import TypeIdentity.Error
import TypeIdentity.Identifier

/-! # The path codec

The codec turns package paths into identifiers and back.  Paths that are identifiers already stand
for themselves; the others become tokens.  Both directions remember what they have answered.
-/
namespace TypeIdentity

/-- What has been answered so far: the tokens of paths, and the paths of tokens. -/
structure PathCodec where
  tokens : Std.HashMap String String := ∅
  paths : Std.HashMap String String := ∅

namespace PathCodec

def empty : PathCodec := {}

def wrap (codec : PathCodec) (path : String) : String × PathCodec :=
  if path = "" ∨ isIdentifier path.toList then (path, codec)
  else match codec.tokens[path]? with
    | some token => (token, codec)
    | none =>
      let token := String.ofList (encode path.toList)
      (token, ⟨codec.tokens.insert path token, codec.paths.insertIfNew token path⟩)

/-- The path of a token.  Text with a point or a slash is a path already, and so is an identifier
without the mark; a token may also be one that `wrap` would not produce. -/
def unwrap (codec : PathCodec) (token : String) : Except Error String × PathCodec :=
  if '.' ∈ token.toList ∨ '/' ∈ token.toList then (.ok token, codec)
  else match tokenMark.toList.isPrefixOf? token.toList with
    | none => (.ok token, codec)
    | some body =>
      match codec.paths[token]? with
      | some path => (.ok path, codec)
      | none =>
        match decode body with
        | .error e => (.error (.malformed token (.badToken e)), codec)
        | .ok chars =>
          let path := String.ofList chars
          (.ok path, { codec with paths := codec.paths.insert token path })

/-- Number of distinct paths that have tokens. -/
def size (codec : PathCodec) : Nat := codec.tokens.size

def isEmpty (codec : PathCodec) : Bool := codec.size = 0

end PathCodec
end TypeIdentity
