import TypeIdentity.Proofs.Literal.Transparency

/-! # Texts put into texts

The canonical texts of literals may be put in the places of components when another literal is
written.  What comes about is not always the canonical text of the whole: the element of a channel
that is put in as a text gets no parentheses.  It is parsed as the whole all the same, without tables
and with them.
-/
namespace TypeIdentity
open Text Literal TypeLiteral Reading

namespace TypeLiteral

/-- A name that is written as the given text, whatever it is. -/
def verbatim (text : String) : TypeLiteral := named "" text []

theorem write_verbatim (spell : String → String) (text : String) :
    (verbatim text).write spell = text.toList := by
  rw [verbatim, write_named_nil, qualified, if_pos rfl, List.nil_append]

/-- Written like the second literal, but for components that are put in as their texts. -/
inductive Transcribes (spell : String → String) (allowed : String → Prop) :
    TypeLiteral → TypeLiteral → Prop
  | text {t : TypeLiteral} (ht : t.Legible spell allowed) :
      Transcribes spell allowed (verbatim (t.render spell)) t
  | shape (z : Shape (TypeLiteral × TypeLiteral))
      (hu : NodeWellFormed spell (shape (z.mapChildren Prod.fst)))
      (ht : (shape (z.mapChildren Prod.snd)).Legible spell allowed)
      (hc : ∀ c ∈ z.children, Transcribes spell allowed c.1 c.2) :
      Transcribes spell allowed (shape (z.mapChildren Prod.fst)) (shape (z.mapChildren Prod.snd))
  | named (path name : String) (zs : List (TypeLiteral × TypeLiteral))
      (ht : (named path name (zs.map Prod.snd)).Legible spell allowed)
      (hc : ∀ c ∈ zs, Transcribes spell allowed c.1 c.2) :
      Transcribes spell allowed (named path name (zs.map Prod.fst))
        (named path name (zs.map Prod.snd))

variable {spell : String → String} {allowed : String → Prop} {u t : TypeLiteral}

theorem Transcribes.legible (h : Transcribes spell allowed u t) : t.Legible spell allowed := by
  cases h with
  | text ht => exact ht
  | shape _ _ ht _ => exact ht
  | named _ _ _ ht _ => exact ht

/-- The text of a transcript of the literal. -/
def Transcribed (spell : String → String) (allowed : String → Prop) (text : List Char)
    (t : TypeLiteral) : Prop :=
  ∃ u, Transcribes spell allowed u t ∧ text = u.write spell

theorem transcribed_of_printed {text : List Char} (h : Printed spell allowed text t) :
    Transcribed spell allowed text t := by
  obtain ⟨ht, rfl⟩ := h
  refine ⟨verbatim (t.render spell), .text ht, ?_⟩
  rw [write_verbatim, render_eq, String.toList_ofList]

theorem nameWellFormed_fst {path name : String} {zs : List (TypeLiteral × TypeLiteral)}
    (h : NameWellFormed spell path name (zs.map Prod.snd)) :
    NameWellFormed spell path name (zs.map Prod.fst) := by
  simpa only [NameWellFormed, List.map_eq_nil_iff] using h

/-- A pointer that may be embedded points to a name or a basic type. -/
theorem embeddable_of_pointer (h : (shape (.pointer t)).Embeddable) : t.Embeddable := by
  rcases h.pointee with ⟨path, name, args, he⟩ | ⟨b, he⟩
  · obtain rfl : t = named path name args := he
    trivial
  · obtain rfl : t = shape (.basic b) := he
    trivial

/-- A transcript of a component can be read as the component wherever it stands. -/
theorem Transcribes.reads (h : Transcribes spell allowed u t) :
    Reads spell (Transcribed spell allowed) u t := by
  induction h with
  | @text t ht =>
    have hself := reads_self (fun _ _ => transcribed_of_printed) ht
    have hw : (verbatim (t.render spell)).write spell = t.write spell := by
      rw [write_verbatim, render_eq, String.toList_ofList]
    refine ⟨⟨hw ▸ hself.standalone, by simp [verbatim, children]⟩, ⟨_, .text ht, rfl⟩, ?_, ?_, ?_, ?_⟩
    · rintro e ⟨⟩
    · exact fun he => hw ▸ hself.word he
    · exact hw ▸ hself.entry
    · exact fun hd => hw ▸ hself.dots hd
  | shape z hu ht hc ih =>
    have hchildren : ∀ c ∈ (z.mapChildren Prod.fst).children, Written spell c := by
      intro c hm
      obtain ⟨p, hp, rfl⟩ := Shape.exists_of_mem_children hm
      exact (ih p hp).written
    refine ⟨⟨standalone_shape hu.members hchildren, fun c hm => (hchildren c hm).1⟩,
      ⟨_, .shape z hu ht hc, rfl⟩, ?_, ?_, .inr (head?_shape_ne spell _),
      fun _ => after?_ellipsis_shape spell _⟩
    · intro e he
      cases z <;> cases he
      next c => exact ⟨c.2, rfl, _, hc c (List.mem_singleton_self c), rfl⟩
    · intro he
      cases z with
      | basic b => exact word_basic b
      | pointer c =>
        have hword := (ih c (List.mem_singleton_self c)).word (embeddable_of_pointer he)
        rw [Shape.mapChildren, write]
        exact .char (by simp [Scan.IsPlain]) (by simp) hword
      | _ => exact absurd he id
  | named path name zs ht hc ih =>
    have hname := nameWellFormed_fst ht.wellFormed.here
    have hargs : ∀ a ∈ zs.map Prod.fst, Standalone (a.write spell) := by
      intro a ha
      obtain ⟨c, hm, rfl⟩ := List.mem_map.1 ha
      exact (ih c hm).standalone
    have hwritten := standalone_named (standalone_qualified hname) hargs
    refine ⟨⟨hwritten, hargs⟩, ⟨_, .named path name zs ht hc, rfl⟩, ?_, ?_, ?_, ?_⟩
    · rintro e ⟨⟩
    · exact fun _ => word_named hname hargs
    · exact .inl (word_named hname hargs)
    · exact fun hd => after?_ellipsis_named hname (hd rfl)

theorem Transcribes.yields (h : Transcribes spell allowed u t) :
    Yields spell allowed (Transcribed spell allowed) (level (u.write spell)) t := by
  cases h with
  | text ht =>
    rw [write_verbatim, render_eq, String.toList_ofList]
    exact yields_level ht fun _ _ => transcribed_of_printed
  | shape z hu ht hc =>
    exact yields_shape hu ht.wellFormed.here ht.clear.here fun c hm => (hc c hm).reads
  | named path name zs ht hc =>
    exact yields_named (nameWellFormed_fst ht.wellFormed.here) ht.paths.here
      (fun c hm => (hc c hm).reads.standalone) fun c hm => (hc c hm).reads.reads

theorem yields_transcribed {text : List Char} (h : Transcribed spell allowed text t) :
    Trimmed text ∧ Yields spell allowed (Transcribed spell allowed) (level text) t := by
  obtain ⟨u, hu, rfl⟩ := h
  exact ⟨hu.reads.standalone.trimmed, hu.yields⟩

theorem trim_transcript (h : Transcribes spell allowed u t) :
    trim (u.render spell).toList = u.write spell := by
  rw [render_eq, String.toList_ofList]
  exact trim_of_trimmed h.reads.standalone.trimmed

end TypeLiteral

/-! ## Parsing transcripts -/

variable {allowed : String → Prop} {u t : TypeLiteral}

/-- A transcript is parsed as the literal it is a transcript of. -/
theorem parse_transcript (h : Transcribes id allowed u t) : parse u.canonical = .ok t := by
  have htext : Transcribed id allowed (trim u.canonical.toList) t := ⟨u, h, trim_transcript h⟩
  exact returns_of_yields faithful_plain (fun _ _ => yields_transcribed) htext

namespace ParseTables

/-- With tables the texts that are parsed as stable literals without them are parsed alike. -/
theorem faithful_truthful {R : List Char → TypeLiteral → Prop}
    (hR : ∀ text t, R text t → TypeIdentity.parse (String.ofList text) = .ok t ∧ t.Stable) :
    Faithful (.preserving fun tables => tables.literals.Truthful) (services ⟨true, true⟩) id Unmarked
      R where
  known {text t} ht _ k b hnone hsome tables h := by
    have hrun := Outcome.run_bind (f := k) (known_eq (String.ofList text) tables)
    cases hg : tables.literals.get? (String.ofList text) with
    | none =>
      rw [hg] at hrun
      obtain ⟨after, he, ha⟩ := hnone tables h
      exact ⟨after, hrun.trans he, ha⟩
    | some stored =>
      obtain rfl : stored = t := Except.ok.inj ((h _ _ hg).1.symm.trans (hR text t ht).1)
      rw [hg] at hrun
      obtain ⟨after, he, ha⟩ := hsome tables h
      exact ⟨after, hrun.trans he, ha⟩
  decodePath hs tables h := ⟨tables, decodePath_eq hs tables, h⟩
  share {text t} ht tables h := by
    obtain ⟨literals, he, ha, -⟩ := h.intern (hR text t ht).2
    refine ⟨{ tables with literals }, ?_, ha⟩
    exact (share_eq t tables).trans (by rw [he])
  keep {text t} ht tables h := by
    obtain ⟨literals, he, ha, -⟩ := h.internAs (hR text t ht).1 (hR text t ht).2
    refine ⟨{ tables with literals }, ?_, ha⟩
    exact (keep_eq (String.ofList text) t tables).trans (by rw [he])

theorem parse_transcript (h : Transcribes id Unmarked u t) {tables : ParseTables}
    (ht : tables.literals.Truthful) :
    (parse ⟨true, true⟩ u.canonical tables).1 = .ok t := by
  have hR (text : List Char) (c : TypeLiteral) (hc : Transcribed id Unmarked text c) :
      TypeIdentity.parse (String.ofList text) = .ok c ∧ c.Stable := by
    obtain ⟨v, hv, rfl⟩ := hc
    rw [← render_eq]
    exact ⟨TypeIdentity.parse_transcript hv,
      stable_of_wellFormed hv.legible.wellFormed hv.legible.clear⟩
  have htext : Transcribed id Unmarked (trim u.canonical.toList) t := ⟨u, h, trim_transcript h⟩
  obtain ⟨after, he, -⟩ :=
    returns_of_yields (faithful_truthful hR) (fun _ _ => yields_transcribed) htext tables ht
  exact congrArg Prod.fst he

end ParseTables
end TypeIdentity
