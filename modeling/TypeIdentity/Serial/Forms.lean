import TypeIdentity.Engine.Promotion
import TypeIdentity.Serial.Data

/-! # Serial forms

How the values of the library are written as documents and read back.  A literal is its canonical
text; reading one may fail because the text denotes no type.
-/
namespace TypeIdentity
open Serial

namespace BasicType

/-- The name in documents, which has no point. -/
def serialName : BasicType → String
  | unsafePointer => "unsafe_pointer"
  | b => b.name

def toData (b : BasicType) : Data := .string b.serialName

def ofData? (d : Data) : Option BasicType := do
  let name ← d.constant?
  all.find? (·.serialName = name)

end BasicType

namespace Direction

def serialName : Direction → String
  | send => "send"
  | recv => "recv"
  | both => "both"

def toData (d : Direction) : Data := .string d.serialName

def ofSerialName? (name : String) : Option Direction :=
  [send, recv, both].find? (·.serialName = name)

def ofData? (d : Data) : Option Direction := do ofSerialName? (← d.constant?)

end Direction

namespace Kind

/-- The kinds that say nothing more, with their names in documents. -/
def plain : List (String × Kind) := [
  ("array", array), ("slice", slice), ("map", map), ("chan", chan), ("func", func),
  ("struct", struct), ("interface", interface), ("pointer", pointer), ("named", named)]

def toData : Kind → Data
  | basic b => .record [("basic", b.toData)]
  | pointer => .string "pointer"
  | k => .string k.text

def ofData? : Data → Option Kind
  | .record [("basic", b)] => (BasicType.ofData? b).map basic
  | d => do plain.lookup (← d.constant?)

end Kind

namespace TypeLiteral

def toData (t : TypeLiteral) : Data := .string t.canonical

/-- Reads a literal; without an error of its own a failure means that there is no text. -/
def ofData : Data → Except (Option Error) TypeLiteral
  | .string id => (parse id).mapError some
  | _ => .error none

def ofData? (d : Data) : Option TypeLiteral := (ofData d).toOption

end TypeLiteral

namespace Engine.Config

def fieldNames : List String := ["max_traversal_depth", "parallel_threshold"]

def toData (c : Config) : Data :=
  .record (fieldNames.zip [.natural c.maxTraversalDepth, .natural c.parallelThreshold])

/-- Reads a configuration; what is missing keeps its default. -/
def ofData? (d : Data) : Option Config := do
  let default : Config := {}
  match ← d.fields? fieldNames with
  | [depth, threshold] =>
    let depth ← (depth.map Data.word?).getD default.maxTraversalDepth
    let threshold ← (threshold.map Data.word?).getD default.parallelThreshold
    return ⟨depth, threshold⟩
  | _ => none

end Engine.Config

namespace Engine.Counters

def fieldNames : List String := ["identity_hits", "identity_misses", "parses", "resolutions"]

def toData (m : Counters) : Data :=
  .record (fieldNames.zip
    [.natural m.identityHits, .natural m.identityMisses, .natural m.parses, .natural m.resolutions])

def ofData? (d : Data) : Option Counters := do
  match ← (← d.allFields? fieldNames).mapM Data.word? with
  | [hits, misses, parses, resolutions] => return ⟨hits, misses, parses, resolutions⟩
  | _ => none

end Engine.Counters

namespace Engine.MethodEntry

def fieldNames : List String := ["name", "signature", "pointer_receiver", "depth"]

def toData (m : MethodEntry) : Data :=
  .record (fieldNames.zip
    [.string m.name, m.signature.toData, .bool m.pointerReceiver, .natural m.depth])

def ofData? (d : Data) : Option MethodEntry := do
  match ← d.allFields? fieldNames with
  | [name, signature, pointerReceiver, depth] =>
    return ⟨← name.string?, ← TypeLiteral.ofData? signature, ← pointerReceiver.bool?, ← depth.word?⟩
  | _ => none

end Engine.MethodEntry

namespace Field

def fieldNames : List String := ["name", "ty", "tag", "embedded"]

def toData (f : Field TypeLiteral) : Data :=
  .record (fieldNames.zip [.string f.name, f.type.toData, .string f.tag, .bool f.embedded])

def ofData? (d : Data) : Option (Field TypeLiteral) := do
  match ← d.allFields? fieldNames with
  | [name, type, tag, embedded] =>
    return ⟨← name.string?, ← TypeLiteral.ofData? type, ← tag.string?, ← embedded.bool?⟩
  | _ => none

end Field
end TypeIdentity
