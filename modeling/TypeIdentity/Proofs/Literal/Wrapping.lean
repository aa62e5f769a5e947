import TypeIdentity.Literal.Table
import TypeIdentity.Literal.Wrapped
import TypeIdentity.Proofs.Literal.RoundTrip
import TypeIdentity.Proofs.PathCodec.States

/-! # Parsing wrapped ids

In a wrapped id every package path is an identifier, whatever the path is.  A parser that has the
codec the id was written with decodes these identifiers again, so that it reads the literal back.
-/
namespace TypeIdentity
open Text TypeLiteral Reading

namespace TypeLiteral
variable {t : TypeLiteral}

/-- What a node has to satisfy when its package path may be any text but one that is taken for the
token of another path. -/
def NodeWrappable : TypeLiteral → Prop
  | named path name args =>
    path = "" ∧ name = "error" ∧ args = [] ∨
      path ≠ "" ∧ ¬PathCodec.TakenForToken path ∧ isIdentifier name.toList = true ∧
        ¬(path = "unsafe" ∧ name = "Pointer" ∧ args = [])
  | t => NodeWellFormed id t

/-- Well-formed but for the package paths, which are spelled by the codec. -/
def Wrappable (t : TypeLiteral) : Prop := t.Everywhere NodeWrappable

instance : DecidablePred NodeWrappable
  | named _ _ _ => inferInstanceAs (Decidable (_ ∧ _ ∧ _ ∨ _ ∧ _ ∧ _ ∧ ¬(_ ∧ _ ∧ _)))
  | shape s => inferInstanceAs (Decidable (NodeWellFormed id (shape s)))

theorem nodeWellFormed_of_wrappable (h : t.NodeWrappable) :
    t.NodeWellFormed PathCodec.spelled := by
  cases t with
  | shape s => cases s <;> exact h
  | named path name args =>
    rcases h with herror | ⟨hne, -, hname, hpointer⟩
    · exact .inl herror
    · exact .inr ⟨hne, .of_isIdentifier (PathCodec.isIdentifier_spelled hne), hname, hpointer⟩

/-- No identifier is a pair of points, so nothing is taken for an ellipsis. -/
theorem nodeClear_spelled (t : TypeLiteral) : t.NodeClear PathCodec.spelled := by
  have hpath (path : String) : PathCodec.spelled path ≠ ".." := by
    intro he
    by_cases hp : path = ""
    · rw [hp] at he
      exact absurd he (by decide)
    · have hid := PathCodec.isIdentifier_spelled hp
      rw [he] at hid
      exact absurd hid (by decide)
  have hclear (s : Signature TypeLiteral) : s.Clear PathCodec.spelled := fun u _ _ => hpath u.path
  unfold NodeClear
  split
  · exact hclear _
  · exact fun m _ => hclear m.signature
  · trivial

/-- Everywhere a path the codec takes back. -/
theorem Wrappable.legible (h : t.Wrappable) :
    t.Legible PathCodec.spelled fun path => ¬PathCodec.TakenForToken path := by
  refine ⟨h.imp fun _ => nodeWellFormed_of_wrappable, h.imp fun u _ => nodeClear_spelled u,
    h.imp fun u hu hp => ?_⟩
  cases u with
  | shape s => exact absurd rfl hp
  | named path name args =>
    rcases hu with ⟨he, -⟩ | ⟨-, ht, -⟩
    · exact absurd he hp
    · exact ht

/-- A sound codec spells every path in the one way, and has learnt nothing wrong by it. -/
theorem wrapped_eq (t : TypeLiteral) {codec : PathCodec} (h : codec.Sound) :
    (t.wrapped codec).1 = t.render PathCodec.spelled ∧ (t.wrapped codec).2.Sound := by
  have hfold (paths : List String) (codec : PathCodec) (h : codec.Sound) :
      (paths.foldl (fun c path => (c.wrap path).2) codec).Sound := by
    induction paths generalizing codec with
    | nil => exact h
    | cons path paths ih => exact ih _ (h.wrap path).2
  have hlearnt := hfold t.packagePaths codec h
  have hspell : (fun path => ((t.wrapped codec).2.wrap path).1) = PathCodec.spelled :=
    funext fun path => (hlearnt.wrap path).1
  exact ⟨congrArg t.render hspell, hlearnt⟩

end TypeLiteral

namespace ParseTables

/-- The services that use the codec only keep to the literals they are given. -/
theorem faithful_codec {R : List Char → TypeLiteral → Prop} :
    Faithful (.preserving fun tables => tables.codec.Sound) (services ⟨false, true⟩)
      PathCodec.spelled (fun path => ¬PathCodec.TakenForToken path) R where
  known _ _ _ _ hnone _ := hnone
  decodePath {path token} hs tables h := by
    have hanswer : (tables.codec.unwrap token).1 = .ok path := by
      rcases hs with ⟨hne, hp, -, rfl⟩ | ⟨rfl, rfl⟩
      · exact h.unwrap_spelled hne hp
      · rw [PathCodec.unwrap_of_not_mark (by decide)]
    refine ⟨{ tables with codec := (tables.codec.unwrap token).2 }, ?_, h.unwrap token⟩
    exact Prod.ext hanswer rfl
  share {_ t} _ := Outcome.pure _ t
  keep {_ t} _ := Outcome.pure _ t

/-- A literal is read back from its wrapped id by a parser with the codec that wrote it, whatever
the codec has been asked for before. -/
theorem parse_wrapped (calls : List PathCodec.Call) {t : TypeLiteral} (h : t.Wrappable)
    (literals : LiteralTable) :
    (ParseTables.parse ⟨false, true⟩ (t.wrapped (PathCodec.reached calls)).1
      ⟨literals, (t.wrapped (PathCodec.reached calls)).2⟩).1 = .ok t := by
  obtain ⟨htext, hsound⟩ := t.wrapped_eq (PathCodec.sound_reached calls)
  have hid : trim (t.wrapped (PathCodec.reached calls)).1.toList = t.write PathCodec.spelled := by
    rw [htext]
    exact trim_render h.legible.wellFormed
  obtain ⟨after, hparse, -⟩ := returns_parseWith faithful_codec h.legible hid
    ⟨literals, (t.wrapped (PathCodec.reached calls)).2⟩ hsound
  exact congrArg Prod.fst hparse

/-- Paths with blanks, brackets, quotes and points, and one that begins like a token. -/
def wrappedSample : TypeLiteral :=
  shape (.func ⟨[named ".." "T" [], named "a [b]" "Pair" [named "\"é, ü\"" "Key" [], error]],
    [shape (.struct [⟨"Map", named "xwrap_a/b" "Map" [], "", true⟩])], false⟩)

/-- A path is first met through a token that no wrapping gives. -/
def wrappedCalls : List PathCodec.Call :=
  [.wrap "a/b", .clear, .unwrap "xwrap__x2e__d_", .wrap "a [b]"]

theorem parse_wrapped_sample : wrappedSample.Wrappable ∧
    (ParseTables.parse ⟨false, true⟩ (wrappedSample.wrapped (PathCodec.reached wrappedCalls)).1
      ⟨.empty, (wrappedSample.wrapped (PathCodec.reached wrappedCalls)).2⟩).1 =
        .ok wrappedSample := by
  have hw : wrappedSample.Wrappable := by
    unfold Wrappable
    decide +kernel
  exact ⟨hw, parse_wrapped wrappedCalls hw .empty⟩

end ParseTables
end TypeIdentity
