import TypeIdentity.Literal.Printer
import TypeIdentity.PathCodec.Basic

/-! # Wrapped ids

The wrapped id of a literal spells every package path as an identifier, so that the codec can decode
it again.
-/
namespace TypeIdentity.TypeLiteral

/-- The package paths of a literal, in the order in which they are written. -/
def packagePaths : TypeLiteral → List String
  | shape s => s.attach.children.flatMap fun c => packagePaths c.1
  | named path _ args =>
    (if path = "" then [] else [path]) ++ args.attach.flatMap fun c => packagePaths c.1
termination_by t => sizeOf t
decreasing_by
  · have := Shape.sizeOf_lt c.2
    simp; omega
  · have := List.sizeOf_lt_of_mem c.2
    simp; omega

/-- The wrapped id, and the codec that has learnt its paths. -/
def wrapped (t : TypeLiteral) (codec : PathCodec) : String × PathCodec :=
  let codec := t.packagePaths.foldl (fun c path => (c.wrap path).2) codec
  (t.render fun path => (codec.wrap path).1, codec)

end TypeIdentity.TypeLiteral
