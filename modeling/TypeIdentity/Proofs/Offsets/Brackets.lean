import TypeIdentity.Proofs.Offsets.Spans
import TypeIdentity.Proofs.Scan.Matching

/-! # Where the brackets of a span stand

The offsets of a span are those of its brackets in the bytes of the text, and what stands between them
is its inside.  Where the texts before the opening bracket and between the two close their quotes, these
are the brackets that match.
-/
namespace TypeIdentity.Scan
open Text

variable {kind : Bracket} {c : Char} {u : List Char}

theorem getElem?_utf8Encode {before after : List Char} (hc : c.toNat < 0x80) :
    (utf8Encode (before ++ c :: after))[utf8Size before]? = some c.toUInt8 := by
  have hbytes : utf8Encode (before ++ c :: after) =
      utf8Encode before ++ (String.utf8EncodeChar c ++ utf8Encode after) := by
    simp [utf8Encode]
  rw [hbytes, List.getElem?_append_right (Nat.le_of_eq (Offsets.length_utf8Encode before)),
    Offsets.length_utf8Encode, Nat.sub_self, (Offsets.utf8EncodeChar_ascii hc).1]
  rfl

theorem Span.closeOffset_eq (kind : Bracket) (b : Span) :
    b.closeOffset = utf8Size (b.before ++ kind.opener :: b.inner) := by
  have hone : kind.opener.utf8Size = 1 := by cases kind <;> rfl
  rw [closeOffset, Offsets.utf8Size_append, Offsets.utf8Size_cons, hone, Nat.add_assoc]

namespace Span.Matched
variable {id : List Char} {b : Span}

/-- The brackets stand at the offsets of the span. -/
theorem brackets (h : b.Matched kind id) :
    (utf8Encode id)[b.openOffset]? = some kind.opener.toUInt8 ∧
      (utf8Encode id)[b.closeOffset]? = some kind.closer.toUInt8 := by
  have hopener : kind.opener.toNat < 0x80 := by cases kind <;> decide
  have hcloser : kind.closer.toNat < 0x80 := by cases kind <;> decide
  have htext : id = b.before ++ kind.opener :: b.inner ++ kind.closer :: b.after := by
    rw [h.text, List.append_assoc, List.cons_append]
  constructor
  · rw [h.text]
    exact getElem?_utf8Encode hopener
  · rw [b.closeOffset_eq kind, htext]
    exact getElem?_utf8Encode hcloser

/-- Between them stands the inside. -/
theorem inside (h : b.Matched kind id) : Offsets.slice id (b.openOffset + 1) b.closeOffset =
    (pure b.inner : Offsets.Checked (Except Error) (List Char)) := by
  have htext : id = b.before ++ [kind.opener] ++ (b.inner ++ kind.closer :: b.after) := by
    rw [h.text, List.append_assoc, List.singleton_append]
  have hone : utf8Size [kind.opener] = 1 := by cases kind <;> rfl
  have hstart : b.openOffset + 1 = utf8Size (b.before ++ [kind.opener]) := by
    rw [Offsets.utf8Size_append, hone]
    rfl
  refine Offsets.slice_eq htext hstart ?_
  rw [← hstart]
  rfl

/-- The scan of the bytes finds them there too. -/
theorem firstSpan_offsets (h : b.Matched kind id) (hlimit : utf8Size id < Offsets.sizeLimit) :
    Offsets.firstSpan kind id = pure (some (.of b)) := by
  rw [Offsets.firstSpan_eq hlimit, firstSpan_eq_some_iff.2 h]
  rfl

end Span.Matched

/-! ## The brackets that match -/

theorem Span.matched_of_closed {inner : List Char} (hu : QuotesClosed u)
    (hfirst : Unbracketed kind (Quoting.plain.exposed u)) (hinner : QuotesClosed inner)
    (hbalanced : Balanced kind (Quoting.plain.exposed inner)) (rest : List Char) :
    Span.Matched kind (u ++ kind.opener :: (inner ++ kind.closer :: rest)) ⟨u, inner, rest⟩ :=
  ⟨rfl, hu.run, hu.unbracketed hfirst, hinner.run, hinner.balanced hbalanced⟩

theorem firstSpanBy_opener (kind : Bracket) (id : List Char) :
    firstSpanBy kind.opener id = firstSpan kind id := by
  cases kind <;> rfl

/-- The first bracket of a kind outside of quotes is found together with the one that closes it, whatever
comes after them; and what is found are two such brackets at their offsets and a balanced text between. -/
theorem firstSpanBy_matching (kind : Bracket) :
    (∀ u inner rest, QuotesClosed u → Unbracketed kind (Quoting.plain.exposed u) →
      QuotesClosed inner → Balanced kind (Quoting.plain.exposed inner) →
      ∃ b, firstSpanBy kind.opener (u ++ kind.opener :: (inner ++ kind.closer :: rest)) =
          .ok (some b) ∧
        b.inner = inner ∧ b.openOffset = utf8Size u ∧
          b.closeOffset = utf8Size (u ++ kind.opener :: inner)) ∧
    ∀ id b, firstSpanBy kind.opener id = .ok (some b) →
      (utf8Encode id)[b.openOffset]? = some kind.opener.toUInt8 ∧
        (utf8Encode id)[b.closeOffset]? = some kind.closer.toUInt8 ∧
        Offsets.slice id (b.openOffset + 1) b.closeOffset =
          (pure b.inner : Offsets.Checked (Except Error) (List Char)) ∧
        Quoting.plain.run b.before = .plain ∧
        Balanced kind (Quoting.plain.structural b.inner) := by
  constructor
  · intro u inner rest hu hfirst hinner hbalanced
    refine ⟨⟨u, inner, rest⟩, ?_, rfl, rfl, Span.closeOffset_eq kind ⟨u, inner, rest⟩⟩
    rw [firstSpanBy_opener, firstSpan_eq_some_iff]
    exact Span.matched_of_closed hu hfirst hinner hbalanced rest
  · intro id b h
    rw [firstSpanBy_opener, firstSpan_eq_some_iff] at h
    exact ⟨h.brackets.1, h.brackets.2, h.inside, h.outside, h.balanced⟩

/-- Quoted brackets before the span and inside it, an escaped quote, and an open one after it. -/
theorem firstSpanBy_matching_quoted :
    ∃ b, firstSpanBy '[' "é\"[\"([a\"]\\\"\"[1]]x\"]".toList = .ok (some b) ∧
      (b.inner = "a\"]\\\"\"[1]".toList ∧ b.openOffset = 6 ∧ b.closeOffset = 16) ∧
      (utf8Encode "é\"[\"([a\"]\\\"\"[1]]x\"]".toList)[b.closeOffset]? = some ']'.toUInt8 ∧
      Balanced .square (Quoting.plain.structural b.inner) := by
  obtain ⟨hfinds, hfound⟩ := firstSpanBy_matching .square
  obtain ⟨b, hb, hparts⟩ := hfinds "é\"[\"(".toList "a\"]\\\"\"[1]".toList "x\"]".toList
    (by decide) (by decide) (by decide) (by decide)
  obtain ⟨-, hcloser, -, -, hbalanced⟩ := hfound _ b hb
  exact ⟨b, hb, hparts, hcloser, hbalanced⟩

end TypeIdentity.Scan
