import TypeIdentity.Literal.Wrapped
import TypeIdentity.Proofs.Literal.Recovery
import TypeIdentity.Proofs.Scan.Matching

/-! # What is taken for a package path

A name is cut at its first square bracket and at the last point before it, and of what stands before
that point only the beginning is looked at.  So a path may hold blanks, separators, quotes and
brackets that close nothing; what it may not hold is a square bracket that the scanner sees, and it
may not begin like another kind of type.
-/
namespace TypeIdentity
open Text Scan

namespace Literal
open TypeLiteral

/-- What may stand before the last point of a name. -/
structure PathText (path : List Char) : Prop where
  visible : ∃ c rest, path = c :: rest ∧ isBlank c = false
  square : ∀ before c after, path = before ++ c :: after →
    (Quoting.plain.run before).isStructural c = true → c ∉ ['[', ']']
  lead : ∀ lead ∈ ["chan<- ", "<-chan ", "chan ", "func(", "*"], ¬lead.toList <+: path
  block : ∀ keyword ∈ ["struct", "interface"], ∀ pad, (∀ c ∈ pad, isBlank c = true) →
    ¬keyword.toList ++ pad ++ ['\x7b'] <+: path

/-! ## Beginnings of names -/

section Beginnings
variable {path more : List Char}

/-- Words without a point that a text begins with end before the first point. -/
theorem prefix_of_point {lead rest : List Char} (hl : '.' ∉ lead)
    (h : path ++ '.' :: more = lead ++ rest) : lead <+: path := by
  rcases List.append_eq_append_iff.1 h with ⟨tail, rfl, htail⟩ | ⟨tail, rfl, -⟩
  · cases tail with
    | nil => exact ⟨[], by simp⟩
    | cons d tail =>
      obtain ⟨rfl, -⟩ := List.cons.inj htail
      exact absurd (by simp) hl
  · exact ⟨tail, rfl⟩

theorem PathText.head (h : PathText path) : Head.of (path ++ '.' :: more) = .name := by
  have hsquare (lead : List Char) (hrun : Quoting.plain.run lead = .plain) :
      ¬lead ++ ['['] <+: path := by
    rintro ⟨after, he⟩
    refine h.square lead '[' after (by rw [← he, List.append_assoc]; rfl) ?_ (by simp)
    rw [hrun]
    rfl
  have hopened (lead : String) (c : Char) (hl : '.' ∉ lead.toList ++ [c])
      (hn : ¬lead.toList ++ [c] <+: path) : Head.opened? lead c (path ++ '.' :: more) = none := by
    apply Head.opened?_none
    intro rest he
    exact hn (prefix_of_point hl (he.trans (List.append_cons ..)))
  have hs : Head.opened? "" '[' (path ++ '.' :: more) = none :=
    hopened "" '[' (by decide) (hsquare _ rfl)
  have hm : Head.opened? "map" '[' (path ++ '.' :: more) = none :=
    hopened "map" '[' (by decide) (hsquare _ rfl)
  have hf : Head.opened? "func" '(' (path ++ '.' :: more) = none :=
    hopened "func" '(' (by decide) (h.lead "func(" (by simp))
  have hc : Head.chan? (path ++ '.' :: more) = none := by
    apply Head.chan?_none
    intro d rest he
    have hl : '.' ∉ d.lead.toList ∧ d.lead ∈ ["chan<- ", "<-chan ", "chan ", "func(", "*"] := by
      cases d <;> decide
    exact h.lead d.lead hl.2 (prefix_of_point hl.1 he)
  have hblock (keyword : String) (hk : keyword ∈ ["struct", "interface"])
      (hpoint : '.' ∉ keyword.toList) : Head.block? keyword (path ++ '.' :: more) = none := by
    apply Head.block?_none
    intro pad rest hp he
    refine h.block keyword hk pad hp (prefix_of_point ?_ (he.trans (List.append_cons ..)))
    simp only [List.mem_append, List.mem_singleton, not_or]
    exact ⟨⟨hpoint, fun hm => absurd (hp _ hm) (by decide)⟩, by decide⟩
  have hp : Head.pointer? (path ++ '.' :: more) = none := by
    apply Head.pointer?_none
    intro hstar
    obtain ⟨rest, he⟩ := List.head?_eq_some_iff.1 hstar
    have hfirst : "*".toList <+: path := prefix_of_point (by decide) he
    exact h.lead "*" (by simp) hfirst
  simp [Head.of, hs, hm, hc, hf, hblock "struct" (by simp) (by decide),
    hblock "interface" (by simp) (by decide), hp]

/-- A name begins with none of the words that tell other kinds of types. -/
theorem not_lead_of_name {id : List Char} (h : Head.of id = .name) :
    (∀ lead ∈ ["chan<- ", "<-chan ", "chan ", "func(", "*"], ¬lead.toList <+: id) ∧
      ∀ keyword ∈ ["struct", "interface"], ∀ pad, (∀ c ∈ pad, isBlank c = true) →
        ¬keyword.toList ++ pad ++ ['\x7b'] <+: id := by
  obtain ⟨⟨-, -, hc, hf⟩, hst, hi, hp⟩ := Head.of_eq_name h
  have hchan (d : Direction) : ¬d.lead.toList <+: id := by
    rintro ⟨rest, rfl⟩
    obtain ⟨hlt, hsome⟩ := Head.chan?_some (Head.ofLead?_lead d rest)
    rw [hc] at hsome
    cases hsome
  have hblock (keyword : String) (hn : Head.block? keyword id = none) (pad : List Char)
      (hpad : ∀ c ∈ pad, isBlank c = true) : ¬keyword.toList ++ pad ++ ['\x7b'] <+: id := by
    rintro ⟨rest, he⟩
    obtain ⟨hle, hsome⟩ := Head.block?_some hpad (he.symm.trans (List.append_assoc ..))
    rw [hn] at hsome
    cases hsome
  constructor
  · intro lead hl
    simp only [List.mem_cons, List.not_mem_nil, or_false] at hl
    rcases hl with rfl | rfl | rfl | rfl | rfl
    · exact hchan .send
    · exact hchan .recv
    · exact hchan .both
    · rintro ⟨rest, he⟩
      obtain ⟨hle, hsome⟩ : ∃ hle, Head.opened? "func" '(' id = some ⟨'(' :: rest, hle⟩ :=
        Head.opened?_some he.symm
      rw [hf] at hsome
      cases hsome
    · rintro ⟨rest, rfl⟩
      cases hp
  · intro keyword hk
    simp only [List.mem_cons, List.not_mem_nil, or_false] at hk
    rcases hk with rfl | rfl
    · exact hblock "struct" hst
    · exact hblock "interface" hi

end Beginnings

/-! ## Paths of parsed names -/

theorem NameParsed.pathText {id : List Char} {path name : String} {args : List TypeLiteral}
    (h : NameParsed id path name args) (ht : Trimmed id) : PathText path.toList := by
  obtain ⟨base, hpoint, hb⟩ := h.base
  obtain rfl := eq_append_of_splitLastPoint hpoint
  obtain ⟨tail, htext⟩ : ∃ tail, id = path.toList ++ tail := by
    rcases hb with ⟨-, rfl, -⟩ | ⟨-, inner, hspan⟩
    · exact ⟨_, rfl⟩
    · exact ⟨_, (firstSpan_eq_append hspan).trans (List.append_assoc ..)⟩
  obtain ⟨hlead, hblock⟩ := not_lead_of_name h.head
  have hprefix : path.toList <+: id := ⟨tail, htext.symm⟩
  refine ⟨?_, ?_, fun lead hl hp => hlead lead hl (hp.trans hprefix),
    fun keyword hk pad hpad hp => hblock keyword hk pad hpad (hp.trans hprefix)⟩
  · obtain ⟨c, rest, hc⟩ : ∃ c rest, path.toList = c :: rest :=
      List.exists_cons_of_ne_nil (by simpa using h.path_ne)
    obtain ⟨c', rest', he, hb⟩ := ht.first
    rw [htext, hc] at he
    exact ⟨c, rest, hc, (List.cons.inj he).1 ▸ hb⟩
  · -- no square bracket is seen before the one that opens the arguments, or in the whole name
    obtain ⟨more, hseen⟩ : ∃ more,
        Unbracketed .square (Quoting.plain.structural (path.toList ++ more)) := by
      rcases hb with ⟨-, -, hnone⟩ | ⟨-, inner, hspan⟩
      · exact ⟨tail, htext ▸ firstSpan_eq_none_iff.1 hnone⟩
      · exact ⟨_, (firstSpan_eq_some_iff.1 hspan).first⟩
    rw [Quoting.structural_append, unbracketed_append] at hseen
    exact unbracketed_structural_iff.1 hseen.1

end Literal

namespace TypeLiteral

theorem packagePaths_shape (s : Shape TypeLiteral) :
    (shape s).packagePaths = s.children.flatMap packagePaths := by
  conv => rhs; rw [← s.attachWith_mapChildren fun _ => id]
  rw [packagePaths, Shape.children_mapChildren, List.flatMap_map]
  rfl

theorem packagePaths_named (path name : String) (args : List TypeLiteral) :
    (named path name args).packagePaths =
      (if path = "" then [] else [path]) ++ args.flatMap packagePaths := by
  conv => rhs; rw [← List.attach_map_subtype_val args]
  rw [packagePaths, List.flatMap_map]

end TypeLiteral

namespace Literal
open TypeLiteral

theorem pathText_of_mem {t : TypeLiteral} (h : Parsed t) {path : String}
    (hm : path ∈ t.packagePaths) : PathText path.toList := by
  induction t with
  | shape s ih =>
    obtain ⟨text, ht⟩ := h
    rw [packagePaths_shape] at hm
    obtain ⟨c, hc, hm⟩ := List.mem_flatMap.1 hm
    exact ih c hc (ht.node.1 c hc) hm
  | named p name args ih =>
    obtain ⟨text, ht⟩ := h
    rw [packagePaths_named] at hm
    rcases List.mem_append.1 hm with hm | hm
    · obtain ⟨hne, rfl⟩ : p ≠ "" ∧ path = p := by simpa using hm
      rcases ht.node.2 with ⟨he, -⟩ | hname
      · exact absurd he hne
      · exact hname.pathText (trimmed_trim ht.visible)
    · obtain ⟨c, hc, hm⟩ := List.mem_flatMap.1 hm
      exact ih c hc (ht.node.1 c hc) hm

/-- With a name after it such a text is read as the path of the name. -/
theorem PathText.parsedFrom {path : List Char} (h : PathText path) :
    ParsedFrom (path ++ ".T".toList) (named (String.ofList path) "T" []) := by
  obtain ⟨c, rest, hfirst, hc⟩ := h.visible
  have hne : path ≠ [] := by simp [hfirst]
  have ht : Trimmed (path ++ ".T".toList) :=
    ⟨⟨c, rest ++ ".T".toList, by rw [hfirst]; rfl, hc⟩, ⟨path ++ ['.'], 'T', by simp, by decide⟩⟩
  have hspan : firstSpan .square (path ++ ".T".toList) = .ok none := by
    rw [firstSpan_eq_none_iff, Quoting.structural_append, unbracketed_append]
    refine ⟨unbracketed_structural_iff.2 h.square, unbracketed_structural_iff.2 ?_⟩
    intro before d after he _
    have hd : d ∈ ".T".toList := by rw [he]; simp
    rcases List.mem_pair.1 hd with rfl | rfl <;> decide
  have hpoint : splitLastPoint (path ++ ".T".toList) = some (path, "T".toList) :=
    splitLastPoint_point (by decide)
  have hchecked : ¬(path = [] ∨ (!isIdentifier "T".toList) = true) := by
    simp only [hne, false_or]
    decide
  have hhead : Head.of (path ++ ".T".toList) = .name := h.head
  refine parsedFrom_of_run ht ?_
  rw [level, hhead]
  simp only []
  rw [readName, splitTypeArgs_none hspan, Reading.done_bind]
  simp only [hpoint]
  rw [if_neg hchecked, run_decodePath, if_neg (fun hu => absurd hu.2 (by decide))]
  rfl

end Literal

/-- The package paths of parsed literals are exactly the texts that can stand before a point. -/
theorem exists_parse_path_iff (path : String) :
    (∃ id t, parse id = .ok t ∧ path ∈ t.packagePaths) ↔ Literal.PathText path.toList := by
  constructor
  · rintro ⟨id, t, ht, hm⟩
    exact Literal.pathText_of_mem ⟨id.toList, ht⟩ hm
  · intro h
    have hne : path ≠ "" := by
      rintro rfl
      obtain ⟨c, rest, he, -⟩ := h.visible
      cases he
    refine ⟨path ++ ".T", .named path "T" [], ?_, ?_⟩
    · have hp := h.parsedFrom
      rwa [String.ofList_toList, ← String.toList_append] at hp
    · simp [TypeLiteral.packagePaths_named, hne]

/-- A bracket that closes nothing, a blank, separators, a quote, and a quoted bracket. -/
def looseTexts : List String := ["x).T", "a b.T", "a,b.T", "func(a;b.T)", "a\"b.T", "\"[\".T"]

/-- They stay in the paths before which they stand. -/
theorem parse_looseTexts :
    (looseTexts.map fun id => (parse id).map TypeLiteral.packagePaths) =
      [.ok ["x)"], .ok ["a b"], .ok ["a,b"], .ok ["a;b"], .ok ["a\"b"], .ok ["\"[\""]] := by
  decide +kernel

end TypeIdentity
