import TypeIdentity.Proofs.Literal.QuotedTags
import TypeIdentity.Proofs.Scan.Joining

/-! # Entries with any balanced type

The tag of an entry is looked for from its end and the name from its beginning.  The type between them
may hold spaces, brackets and quoted strings of its own, other entries with their tags among them: when
it closes its quotes and its brackets, the two meet at its ends.
-/
namespace TypeIdentity.Literal
open Text Scan

namespace EntryText
variable {text : List Char}

theorem of_balanced (ht : Trimmed text) (hq : QuotesClosed text)
    (hb : ∀ kind, Balanced kind (Quoting.plain.exposed text)) (hlast : text.getLast? ≠ some '"') :
    ∃ words, EntryText text words := by
  obtain ⟨words, hwords⟩ := exists_splitParts_space ht hq.run fun kind => hq.balanced (hb kind)
  exact ⟨words, ht, TagScan.run_closed hq, hlast, hwords⟩

theorem of_isPart (h : IsPart .space text) (hlast : text.getLast? ≠ some '"') :
    EntryText text [text] :=
  ⟨h.trimmed, TagScan.run_closed h.quotes, hlast, h.splitParts⟩

end EntryText

/-- A name, a type and a tag are read back from the entry that is made of them, and so is a type
without a name, when it is one word. -/
theorem fieldEntry_printed {name type : List Char} (hname : isIdentifier name = true)
    (ht : Trimmed type) (hq : QuotesClosed type)
    (hb : ∀ kind, Balanced kind (Quoting.plain.exposed type)) (hlast : type.getLast? ≠ some '"')
    (hfirst : type.head? ≠ some '=') (tag : List Char) :
    fieldEntry (name ++ ' ' :: type ++ tagSuffix tag) = .ok ⟨some name, type, tag, false⟩ ∧
      (Covered .space (Quoting.plain.exposed type) →
        fieldEntry (type ++ tagSuffix tag) = .ok ⟨none, type, tag, true⟩) := by
  constructor
  · have hunq : unqualified name = name := unqualified_eq (point_not_mem_of_isIdentifier hname)
    have hne : unqualified name ≠ [] := by
      rw [hunq]
      exact ne_nil_of_isIdentifier hname
    obtain ⟨words, hwords⟩ := EntryText.of_balanced ht hq hb hlast
    have hequals : ∀ t, words ≠ [['='], t] := by
      rintro t rfl
      exact splitParts_ne_of_head ht hfirst t hwords.words
    have hread := hwords.declared hequals hne (isOrdinary_of_isIdentifier hname) tag
    rwa [hunq] at hread
  · intro hcovered
    exact (EntryText.of_isPart ⟨ht, hq, hb, hcovered⟩ hlast).embedded tag

/-- Brackets that cross, spaces in brackets and quotes, a quoted bracket, and a tag with a quote. -/
theorem fieldEntry_printed_crossed :
    fieldEntry "x_1 [(a b])\"c \\\") \"d \"\\\"é\"".toList =
        .ok ⟨some "x_1".toList, "[(a b])\"c \\\") \"d".toList, "\"é".toList, false⟩ ∧
      fieldEntry "[(a b])\"c \\\") \"d \"\\\"é\"".toList =
        .ok ⟨none, "[(a b])\"c \\\") \"d".toList, "\"é".toList, true⟩ := by
  have hname : isIdentifier "x_1".toList = true := by decide +kernel
  obtain ⟨hnamed, hbare⟩ := @fieldEntry_printed "x_1".toList "[(a b])\"c \\\") \"d".toList hname
    (by decide) (by decide) (by decide) (by decide) (by decide) "\"é".toList
  exact ⟨hnamed, hbare (by decide)⟩

end TypeIdentity.Literal
