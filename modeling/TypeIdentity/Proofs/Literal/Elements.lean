import TypeIdentity.Proofs.Literal.Components
import TypeIdentity.Proofs.Literal.Heads
import TypeIdentity.Proofs.Literal.Yields

/-! # Reading elements back

Where a reading cuts the text of a literal, it cuts it into the texts of components.  The types with
one or two elements are read back as they were written.  In a pair of literals the first one is the
one written and the second one the one that its text is read as.
-/
namespace TypeIdentity.Literal
open Text Scan TypeLiteral Reading

variable {n : Nat} {α β : Type} {spell : String → String} {allowed : String → Prop}
  {R : List Char → TypeLiteral → Prop}

/-! ## Steps of readings -/

theorem lift_ok {x : Except Error α} {a : α} (h : x = .ok a) :
    (lift x : Reading n {a // x = .ok a}) = .done ⟨a, h⟩ := by
  subst h
  rfl

theorem span_eq {kind : Bracket} {text : List Char} {b : Span} (h : requireSpan kind text = .ok b) :
    ∃ hb, (span kind text : Reading n _) = .done ⟨b, hb⟩ := by
  have hlen := congrArg List.length (requireSpan_eq_append h)
  refine ⟨by simp at hlen; omega, ?_⟩
  rw [span, lift_ok h]
  rfl

theorem parts_eq {sep : Separator} {text : List Char} {ps : List (List Char)}
    (h : splitParts sep text = .ok ps) (hlt : text.length < n) :
    ∃ hp, parts sep text hlt = .done (ps.attachWith (·.length < n) hp) := by
  have hle : ∀ p ∈ ps, p.length < n := by
    intro p hm
    exact Nat.lt_of_le_of_lt (length_le_of_mem_splitParts h hm) hlt
  refine ⟨hle, ?_⟩
  rw [parts, lift_ok h]
  rfl

/-- What holds of parts and the values they were written from holds of them pairwise. -/
theorem forall₂_parts {γ : Type} {Q : Below n → β → Prop} {g : γ → List Char} {f : γ → β}
    {ys : List γ} (hp : ∀ p ∈ ys.map g, p.length < n) (hQ : ∀ y ∈ ys, ∀ h, Q ⟨g y, h⟩ (f y)) :
    List.Forall₂ Q ((ys.map g).attachWith (·.length < n) hp) (ys.map f) := by
  induction ys with
  | nil => exact .nil
  | cons y ys ih =>
    refine .cons (hQ y (List.mem_cons_self ..) _) ?_
    exact ih _ fun z hz => hQ z (List.mem_cons_of_mem _ hz)

/-- The texts of the literals that are written. -/
def texts (spell : String → String) (zs : List (TypeLiteral × TypeLiteral)) : List (List Char) :=
  zs.map fun c => c.1.write spell

theorem texts_eq (zs : List (TypeLiteral × TypeLiteral)) :
    (zs.map Prod.fst).map (write spell) = texts spell zs := by
  rw [List.map_map]
  rfl

theorem yields_subs {zs : List (TypeLiteral × TypeLiteral)}
    (hR : ∀ c ∈ zs, R (c.1.write spell) c.2) (hp : ∀ p ∈ texts spell zs, p.length < n) :
    Yields spell allowed R (subs ((texts spell zs).attachWith (·.length < n) hp))
      (zs.map Prod.snd) := by
  refine Yields.mapM (forall₂_parts hp fun c hc h => ?_)
  exact Yields.sub (hR c hc) h

theorem splitParts_writeList {pad : List Char} {ts : List TypeLiteral} (hpad : Padding .comma pad)
    (h : ∀ t ∈ ts, Standalone (t.write spell)) :
    splitParts .comma (writeList spell (',' :: pad) ts) = .ok (ts.map (write spell)) := by
  rw [writeList_eq]
  apply splitParts_list hpad
  intro text hm
  obtain ⟨t, ht, rfl⟩ := List.mem_map.1 hm
  exact (h t ht).part

/-! ## Elements -/

variable {e k e' k' : TypeLiteral}

/-- Any trimmed text may stand after the brackets. -/
theorem yields_slice_text {text : List Char} (ht : Trimmed text) (hR : R text e') :
    Yields spell allowed R (readSequence ('[' :: ']' :: text)) (shape (.slice e')) := by
  have hspan : requireSpan .square ('[' :: ']' :: text) = .ok ⟨[], [], text⟩ :=
    requireSpan_lead .square Nested.nil _
  obtain ⟨hb, hs⟩ := span_eq hspan
  have hvisible : isBlankText text = false := not_isBlankText_of_trimmed ht
  rw [readSequence, hs]
  simp only [done_bind, hvisible]
  rw [if_neg Bool.false_ne_true]
  exact (Yields.sub hR _).bind (Yields.done _)

theorem yields_slice (he : Standalone (e.write spell)) (hR : R (e.write spell) e') :
    Yields spell allowed R (readSequence (write spell (shape (.slice e)))) (shape (.slice e')) := by
  rw [write]
  exact yields_slice_text he.trimmed hR

theorem yields_array (m : UInt64) (he : Standalone (e.write spell)) (hR : R (e.write spell) e') :
    Yields spell allowed R (readSequence (write spell (shape (.array m e))))
      (shape (.array m e')) := by
  have hdigits : Nested [] (Nat.toDigits 10 m.toNat) :=
    Nested.of_ordinary (isOrdinary_toDigits _) (by simp)
  have hspan : requireSpan .square (write spell (shape (.array m e))) =
      .ok ⟨[], Nat.toDigits 10 m.toNat, e.write spell⟩ := by
    rw [write]
    exact requireSpan_lead .square hdigits _
  obtain ⟨hb, hs⟩ := span_eq hspan
  have hvisible : isBlankText (e.write spell) = false := not_isBlankText_of_trimmed he.trimmed
  have hnum : readNumeral 10 wordBound (Nat.toDigits 10 m.toNat) = .ok m.toNat :=
    readNumeral_toDigits (by decide) (by decide) m.toNat_lt
  rw [readSequence, hs]
  simp only [done_bind, hvisible]
  rw [if_neg Bool.false_ne_true]
  apply (Yields.sub hR _).bind
  rw [trim_of_trimmed (trimmed_toDigits _)]
  split
  · next hnil => exact absurd hnil Nat.toDigits_ne_nil
  · simp only [hnum, UInt64.ofNat_toNat]
    exact Yields.done _

theorem yields_map (hk : Standalone (k.write spell)) (he : Standalone (e.write spell)) (hRk : R (k.write spell) k')
    (hRe : R (e.write spell) e') {hle : ('[' :: (k.write spell ++ ']' :: e.write spell)).length ≤ n}
    (id : List Char) :
    Yields spell allowed R (readMap id ⟨'[' :: (k.write spell ++ ']' :: e.write spell), hle⟩)
      (shape (.map k' e')) := by
  have hspan : requireSpan .square ('[' :: (k.write spell ++ ']' :: e.write spell)) =
      .ok ⟨[], k.write spell, e.write spell⟩ := requireSpan_lead .square hk.nested.anywhere _
  obtain ⟨hb, hs⟩ := span_eq hspan
  have hvisible : (isBlankText (k.write spell) || isBlankText (e.write spell)) = false := by
    rw [not_isBlankText_of_trimmed hk.trimmed, not_isBlankText_of_trimmed he.trimmed]
    rfl
  rw [readMap, hs]
  simp only [done_bind, hvisible]
  rw [if_neg Bool.false_ne_true]
  exact (Yields.sub hRk _).bind ((Yields.sub hRe _).bind (Yields.done _))

theorem yields_chan (dir : Direction) (he : Standalone (e.write spell)) (hR : R (e.write spell) e')
    {hlt : (e.write spell).length < n} (id : List Char) :
    Yields spell allowed R (readChan id dir ⟨e.write spell, hlt⟩) (shape (.chan dir e')) := by
  have hround : (trim (e.write spell)).head? ≠ some '(' := by
    rw [trim_of_trimmed he.trimmed]
    exact he.head?_ne
  rw [readChan]
  simp only []
  rw [if_neg hround]
  have hsub : R (trim (e.write spell)) e' := (trim_of_trimmed he.trimmed).symm ▸ hR
  exact (Yields.sub hsub _).bind (Yields.done _)

theorem yields_chan_round {text : List Char} (dir : Direction) (ht : Nested [] text)
    (hR : R text e') {hlt : ('(' :: (text ++ [')'])).length < n} (id : List Char) :
    Yields spell allowed R (readChan id dir ⟨'(' :: (text ++ [')']), hlt⟩)
      (shape (.chan dir e')) := by
  have htrim : trim ('(' :: (text ++ [')'])) = '(' :: (text ++ [')']) :=
    trim_of_trimmed ⟨⟨'(', _, rfl, by decide⟩, ⟨'(' :: text, ')', rfl, by decide⟩⟩
  have hspan : requireSpan .round (trim ('(' :: (text ++ [')']))) = .ok ⟨[], text, []⟩ := by
    rw [htrim]
    exact requireSpan_lead .round ht _
  obtain ⟨hb, hs⟩ := span_eq hspan
  have hround : (trim ('(' :: (text ++ [')']))).head? = some '(' := by
    rw [htrim]
    rfl
  rw [readChan]
  simp only []
  rw [if_pos hround, hs]
  exact (Yields.sub hR _).bind (Yields.done _)

end TypeIdentity.Literal
