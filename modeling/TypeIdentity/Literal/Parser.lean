import TypeIdentity.Literal.Level

/-! # Parsing type ids

The parser runs the readings of all levels.  What it does about literals it has seen before, about
package paths and about derived literals is up to the services it is given; `parse` uses none.
-/
namespace TypeIdentity
open Text Literal

/-- How the requests that come up while parsing are met. -/
structure ParseServices (m : Type → Type) where
  /-- The literal already known for a trimmed id. -/
  known : String → m (Option TypeLiteral)
  /-- The package path that stands in an id. -/
  decodePath : String → m String
  /-- The literal to use for one made up while parsing. -/
  share : TypeLiteral → m TypeLiteral
  /-- The literal to use for a trimmed id that has just been read. -/
  keep : String → TypeLiteral → m TypeLiteral

/-- Nothing is remembered, and package paths stand for themselves. -/
def ParseServices.plain : ParseServices (Except Error) where
  known _ := .ok none
  decodePath := .ok
  share := .ok
  keep _ := .ok

/-- Parses an id; blanks around it and around its parts do not matter. -/
def parseWith {m : Type → Type} [Monad m] [MonadExceptOf Error m] (services : ParseServices m)
    (id : List Char) : m TypeLiteral := do
  let text := trim id
  if text = [] then throw (.malformed "" .emptyId)
  else
    match ← services.known (String.ofList text) with
    | some lit => return lit
    | none =>
      let lit ← (level text).run (fun part _ => parseWith services part)
        services.decodePath services.share
      services.keep (String.ofList text) lit
termination_by id.length
decreasing_by
  have : text.length ≤ id.length := length_trim_le id
  omega

def parse (id : String) : Except Error TypeLiteral := parseWith .plain id.toList

end TypeIdentity
