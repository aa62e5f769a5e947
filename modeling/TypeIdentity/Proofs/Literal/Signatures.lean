import TypeIdentity.Proofs.Literal.Elements

/-! # Reading signatures back

Parameters and results are cut at their commas.  The last parameter of a variadic signature begins
with an ellipsis; the text of no other one does, unless its path is two points.
-/
namespace TypeIdentity.Literal
open Text Scan TypeLiteral Reading

variable {n : Nat} {spell : String → String} {allowed : String → Prop}
  {R : List Char → TypeLiteral → Prop} {e e' : TypeLiteral}

/-! ## Parameters -/

theorem yields_lastParam {u t : TypeLiteral} (hR : R (u.write spell) t)
    (hn : after? "..." (u.write spell) = none) (h : (u.write spell).length < n) :
    Yields spell allowed R (readLastParam (⟨u.write spell, h⟩ : Below n)) (t, false) := by
  unfold readLastParam
  split
  · exact (Yields.sub hR _).bind (Yields.done _)
  · next elem he =>
    rw [hn] at he
    cases he

/-- An ellipsis and an element type stand for the slice of these elements. -/
theorem yields_lastParam_ellipsis (hs : R (write spell (shape (.slice e))) (shape (.slice e')))
    (he : R (e.write spell) e') (h : (['.', '.', '.'] ++ e.write spell).length < n) :
    Yields spell allowed R (readLastParam (⟨['.', '.', '.'] ++ e.write spell, h⟩ : Below n))
      (shape (.slice e'), true) := by
  have ha : after? "..." (['.', '.', '.'] ++ e.write spell) = some (e.write spell) :=
    after?_append "..." _
  unfold readLastParam
  split
  · next hn =>
    rw [ha] at hn
    cases hn
  · next elem hm =>
    obtain rfl : e.write spell = elem := Option.some.inj (ha.symm.trans hm)
    apply (Yields.sub he _).bind
    exact (Yields.share hs (Yields.done _)).bind (Yields.done _)

theorem yields_params {init : List (TypeLiteral × TypeLiteral)} {text last : List Char}
    {t : TypeLiteral} {variadic : Bool} (id : List Char) (hlt : text.length < n)
    (hsplit : splitParts .comma text = .ok (texts spell init ++ [last]))
    (hinit : ∀ c ∈ init, R (c.1.write spell) c.2 ∧ after? "..." (c.1.write spell) = none)
    (hlast : ∀ h, Yields spell allowed R (readLastParam (⟨last, h⟩ : Below n)) (t, variadic)) :
    Yields spell allowed R (parts .comma text hlt >>= readParams id)
      (init.map Prod.snd ++ [t], variadic) := by
  obtain ⟨hp, hparts⟩ := parts_eq hsplit hlt
  have hbefore : ∀ p ∈ texts spell init, p.length < n := by
    intro p hm
    exact hp p (List.mem_append_left _ hm)
  have hmap : Yields spell allowed R
      (((texts spell init).attachWith (·.length < n) hbefore).mapM (readParam id))
      (init.map Prod.snd) := by
    refine Yields.mapM (forall₂_parts _ fun c hm h => ?_)
    obtain ⟨hR, hn⟩ := hinit c hm
    rw [readParam]
    simp only [hn]
    exact Yields.sub hR _
  have happend : (texts spell init ++ [last]).attachWith (·.length < n) hp =
      (texts spell init).attachWith (·.length < n) hbefore ++ [⟨last, hp last (by simp)⟩] := by
    simp [List.attachWith_append]
  rw [hparts, done_bind, happend, readParams, List.dropLast_concat]
  apply hmap.bind
  simp only [List.getLast?_concat]
  exact (hlast _).bind (Yields.done _)

/-- Parameters none of which begins with an ellipsis. -/
theorem yields_plainParams {ins : List (TypeLiteral × TypeLiteral)} {text : List Char}
    (hsplit : splitParts .comma text = .ok (texts spell ins))
    (h : ∀ c ∈ ins, R (c.1.write spell) c.2 ∧ after? "..." (c.1.write spell) = none)
    (id : List Char) (hlt : text.length < n) :
    Yields spell allowed R (parts .comma text hlt >>= readParams id) (ins.map Prod.snd, false) := by
  rcases List.eq_nil_or_concat' ins with rfl | ⟨init, z, rfl⟩
  · obtain ⟨hp, hparts⟩ := parts_eq hsplit hlt
    rw [hparts]
    exact Yields.done _
  · have hz := h z (by simp)
    have hsplit' : splitParts .comma text = .ok (texts spell init ++ [z.1.write spell]) := by
      rw [hsplit, texts, List.map_append]
      rfl
    rw [List.map_append (f := Prod.snd)]
    refine yields_params id hlt hsplit' (fun c hc => h c (List.mem_append_left _ hc)) fun hl => ?_
    exact yields_lastParam hz.1 hz.2 hl

/-- What a signature has to satisfy to be read from the text of another one. -/
structure SignatureReads (spell : String → String) (R : List Char → TypeLiteral → Prop)
    (s : Signature (TypeLiteral × TypeLiteral)) : Prop where
  wellFormed : (s.map Prod.fst).WellFormed
  clear : (s.map Prod.snd).Clear spell
  types : ∀ c ∈ s.types, Reads spell R c.1 c.2

/-- What of this matters: only the last parameter is read from a text that begins with an ellipsis,
and only if it is a slice. -/
structure SignatureComponents (spell : String → String) (R : List Char → TypeLiteral → Prop)
    (s : Signature (TypeLiteral × TypeLiteral)) : Prop where
  wellFormed : (s.map Prod.fst).WellFormed
  plain : ∀ c ∈ s.plainIns, after? "..." (c.1.write spell) = none
  types : ∀ c ∈ s.types, Component spell R c.1 c.2

theorem mem_ins_of_mem_plainIns {α : Type} {s : Signature α} {c : α} (h : c ∈ s.plainIns) :
    c ∈ s.ins := by
  unfold Signature.plainIns at h
  split at h
  · exact List.dropLast_subset _ h
  · exact h

theorem plainIns_map {α β : Type} (f : α → β) (s : Signature α) :
    (s.map f).plainIns = s.plainIns.map f := by
  obtain ⟨ins, outs, variadic⟩ := s
  cases variadic <;> simp [Signature.plainIns, Signature.map, List.map_dropLast]

theorem SignatureReads.components {s : Signature (TypeLiteral × TypeLiteral)}
    (h : SignatureReads spell R s) : SignatureComponents spell R s where
  wellFormed := h.wellFormed
  plain c hc := by
    have hm : c.2 ∈ (s.map Prod.snd).plainIns := by
      rw [plainIns_map]
      exact List.mem_map_of_mem hc
    have hin : c ∈ s.types := List.mem_append_left _ (mem_ins_of_mem_plainIns hc)
    exact (h.types c hin).dots (h.clear c.2 hm)
  types c hc := (h.types c hc).component

theorem readParams_plain {ins : List (TypeLiteral × TypeLiteral)}
    (h : ∀ c ∈ ins, Component spell R c.1 c.2)
    (hclear : ∀ c ∈ ins, after? "..." (c.1.write spell) = none)
    (id : List Char) (hlt : (writeParams spell false (ins.map Prod.fst)).length < n) :
    Yields spell allowed R
      (parts .comma (writeParams spell false (ins.map Prod.fst)) hlt >>= readParams id)
      (ins.map Prod.snd, false) := by
  have hsplit : splitParts .comma (writeParams spell false (ins.map Prod.fst)) =
      .ok (texts spell ins) := by
    have halone : ∀ t ∈ ins.map Prod.fst, Standalone (t.write spell) := by
      intro t ht
      obtain ⟨c, hc, rfl⟩ := List.mem_map.1 ht
      exact (h c hc).standalone
    rw [writeParams_plain, ← writeList_eq, ← texts_eq]
    exact splitParts_writeList (padding_space (by decide)) halone
  exact yields_plainParams hsplit (fun c hc => ⟨(h c hc).reads, hclear c hc⟩) id hlt

/-- What a parameter is cut to stands alone, with an ellipsis before it or without. -/
theorem part_ellipsis {text : List Char} (h : Standalone text) :
    Trimmed (['.', '.', '.'] ++ text) ∧ Nested [','] (['.', '.', '.'] ++ text) := by
  have hdots : Nested [',', ';'] ['.', '.', '.'] := Nested.of_plain (by simp [IsPlain])
  exact (h.toEnded.standalone hdots rfl (by decide)).part

theorem readParams_variadic {init : List (TypeLiteral × TypeLiteral)}
    (h : ∀ c ∈ init, Component spell R c.1 c.2)
    (hclear : ∀ c ∈ init, after? "..." (c.1.write spell) = none)
    (hs : Component spell R (shape (.slice e)) (shape (.slice e'))) (id : List Char)
    (hlt : (writeParams spell true (init.map Prod.fst ++ [shape (.slice e)])).length < n) :
    Yields spell allowed R
      (parts .comma (writeParams spell true (init.map Prod.fst ++ [shape (.slice e)])) hlt >>=
        readParams id)
      (init.map Prod.snd ++ [shape (.slice e')], true) := by
  have hsplit : splitParts .comma
      (writeParams spell true (init.map Prod.fst ++ [shape (.slice e)])) =
        .ok (texts spell init ++ [['.', '.', '.'] ++ e.write spell]) := by
    rw [writeParams_variadic, texts_eq]
    apply splitParts_list (padding_space (by decide))
    intro text hm
    rcases List.mem_append.1 hm with hm | hm
    · obtain ⟨c, hc, rfl⟩ := List.mem_map.1 hm
      exact (h c hc).standalone.part
    · obtain rfl := List.mem_singleton.1 hm
      exact part_ellipsis (hs.written.2 e (List.mem_singleton_self e))
  have helem : R (e.write spell) e' := by
    obtain ⟨e'', he, hR⟩ := hs.element e rfl
    obtain rfl := Shape.slice.inj (shape.inj he)
    exact hR
  refine yields_params id hlt hsplit (fun c hc => ⟨(h c hc).reads, hclear c hc⟩) fun hl => ?_
  exact yields_lastParam_ellipsis hs.reads helem hl

theorem yields_readParams {s : Signature (TypeLiteral × TypeLiteral)}
    (h : SignatureComponents spell R s) (id : List Char)
    (hlt : (writeParams spell s.variadic (s.ins.map Prod.fst)).length < n) :
    Yields spell allowed R
      (parts .comma (writeParams spell s.variadic (s.ins.map Prod.fst)) hlt >>= readParams id)
      (s.ins.map Prod.snd, s.variadic) := by
  have hins : ∀ c ∈ s.ins, Component spell R c.1 c.2 := by
    intro c hc
    exact h.types c (List.mem_append_left _ hc)
  obtain ⟨ins, outs, variadic⟩ := s
  rcases h.wellFormed.params with hv | ⟨init, e, hv, hlast⟩
  · obtain rfl : variadic = false := hv
    exact readParams_plain hins h.plain id hlt
  · obtain rfl : variadic = true := hv
    obtain ⟨first, last, rfl, rfl, hl⟩ := List.map_eq_append_iff.1 hlast
    obtain ⟨z, rfl, hz⟩ := List.map_eq_singleton_iff.1 hl
    have hzr := hins z (by simp)
    obtain ⟨e', he', -⟩ := hzr.element e hz
    obtain ⟨u, t⟩ := z
    obtain rfl : u = shape (.slice e) := hz
    obtain rfl : t = shape (.slice e') := he'
    have hinit : ∀ c ∈ first, c ∈ first ++ [(shape (.slice e), shape (.slice e'))] := by
      intro c hc
      exact List.mem_append_left _ hc
    simp only [List.map_append, List.map_cons, List.map_nil] at hlt ⊢
    refine readParams_variadic (fun c hc => hins c (hinit c hc)) (fun c hc => h.plain c ?_) hzr id
      hlt
    simpa [Signature.plainIns] using hc

/-! ## Results -/

theorem trim_writeResults_many {t u : TypeLiteral} {rest : List TypeLiteral} :
    trim (writeResults spell (t :: u :: rest)) =
      '(' :: (writeList spell [',', ' '] (t :: u :: rest) ++ [')']) := by
  have htext : writeResults spell (t :: u :: rest) =
      ' ' :: '(' :: (writeList spell [',', ' '] (t :: u :: rest) ++ [')']) := by
    simp [writeResults]
  rw [htext]
  exact trim_space_cons ⟨⟨'(', _, rfl, by decide⟩,
    ⟨'(' :: writeList spell [',', ' '] (t :: u :: rest), ')', rfl, by decide⟩⟩

/-- Results in parentheses are cut at their commas, also when there is only one. -/
theorem yields_resultList {outs : List (TypeLiteral × TypeLiteral)} {list : List Char}
    (hsplit : splitParts .comma list = .ok (texts spell outs)) (hn : Nested [] list)
    (hR : ∀ c ∈ outs, R (c.1.write spell) c.2) (id : List Char)
    (hlt : ('(' :: (list ++ [')'])).length < n) :
    Yields spell allowed R (readResults id ('(' :: (list ++ [')'])) hlt)
      (outs.map Prod.snd) := by
  obtain ⟨hb, hs⟩ := span_eq (requireSpan_lead .round hn [])
  obtain ⟨hp, hparts⟩ := parts_eq hsplit
    (show _ < n from Nat.lt_of_le_of_lt (by simp; omega) hlt)
  simp only [Bracket.opener, Bracket.closer] at hs
  rw [readResults, if_pos List.head?_cons, hs, done_bind]
  simp only []
  rw [if_neg (by simp), hparts, done_bind]
  exact yields_subs hR hp

theorem yields_results {outs : List (TypeLiteral × TypeLiteral)}
    (h : ∀ c ∈ outs, Component spell R c.1 c.2) (id : List Char) {text : List Char}
    (he : text = trim (writeResults spell (outs.map Prod.fst))) (hlt : text.length < n) :
    Yields spell allowed R (readResults id text hlt) (outs.map Prod.snd) := by
  rcases outs with _ | ⟨z, _ | ⟨y, rest⟩⟩
  · obtain rfl : text = [] := by
      rw [he, List.map_nil, writeResults]
      rfl
    exact Yields.done _
  · have hz := h z (List.mem_cons_self ..)
    obtain rfl : text = z.1.write spell := by
      rw [he, List.map_singleton, writeResults, trim_space_cons hz.standalone.trimmed]
    rw [readResults, if_neg hz.standalone.head?_ne, if_neg hz.standalone.trimmed.ne_nil]
    exact (Yields.sub hz.reads _).bind (Yields.done _)
  · have halone : ∀ t ∈ z.1 :: y.1 :: rest.map Prod.fst, Standalone (t.write spell) := by
      intro t ht
      obtain ⟨c, hc, rfl⟩ := List.mem_map.1 (show t ∈ (z :: y :: rest).map Prod.fst from ht)
      exact (h c hc).standalone
    have hsep : Nested [] [',', ' '] := Nested.of_plain (by simp [IsPlain])
    obtain rfl := he.trans trim_writeResults_many
    have hsplit : splitParts .comma (writeList spell [',', ' '] (z.1 :: y.1 :: rest.map Prod.fst)) =
        .ok (texts spell (z :: y :: rest)) := by
      rw [← texts_eq]
      exact splitParts_writeList (padding_space (by decide)) halone
    exact yields_resultList hsplit (nested_writeList hsep halone) (fun c hc => (h c hc).reads) id hlt

/-- A signature is read when its parameters and its results are. -/
theorem yields_signature_text {list results : List Char} {ins outs : List TypeLiteral}
    {variadic : Bool} (id : List Char) (hn : Nested [] list)
    (hins : ∀ hlt : list.length < n,
      Yields spell allowed R (parts .comma list hlt >>= readParams id) (ins, variadic))
    (houts : ∀ hlt : (trim results).length < n,
      Yields spell allowed R (readResults id (trim results) hlt) outs)
    {hle : ('(' :: (list ++ ')' :: results)).length ≤ n} :
    Yields spell allowed R (readSignature id (⟨'(' :: (list ++ ')' :: results), hle⟩ : Within n))
      ⟨ins, outs, variadic⟩ := by
  obtain ⟨hb, hs⟩ := span_eq (requireSpan_lead .round hn results)
  have hlist : list.length < n := by
    simp only [List.length_cons, List.length_append] at hle
    omega
  simp only [Bracket.opener, Bracket.closer] at hs
  rw [readSignature, hs, done_bind]
  simp only []
  rw [if_neg (by simp), ← LawfulMonad.bind_assoc]
  apply (hins hlist).bind
  exact (houts _).bind (Yields.done _)

theorem yields_signature {s : Signature (TypeLiteral × TypeLiteral)}
    (h : SignatureComponents spell R s) (id : List Char) {text : List Char}
    (he : text = writeSignature spell (s.map Prod.fst)) {hle : text.length ≤ n} :
    Yields spell allowed R (readSignature id (⟨text, hle⟩ : Within n)) (s.map Prod.snd) := by
  have hwritten : ∀ t ∈ (s.map Prod.fst).ins, Written spell t := by
    intro t ht
    obtain ⟨c, hc, rfl⟩ := List.mem_map.1 ht
    exact (h.types c (List.mem_append_left _ hc)).written
  have hparams : Nested [] (writeParams spell s.variadic (s.ins.map Prod.fst)) :=
    nested_writeParams h.wellFormed hwritten
  have htext : text = '(' :: (writeParams spell s.variadic (s.ins.map Prod.fst) ++
      ')' :: writeResults spell (s.outs.map Prod.fst)) := by
    rw [he, Signature.map, writeSignature]
    rfl
  subst htext
  refine yields_signature_text id hparams (fun hlt => yields_readParams h id hlt) fun hlt => ?_
  exact yields_results (fun c hc => h.types c (List.mem_append_right _ hc)) id rfl hlt

end TypeIdentity.Literal
