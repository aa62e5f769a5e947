import TypeIdentity.Proofs.Scan.Nested
import TypeIdentity.Scan.Parts

/-! # Splitting nested texts

Nested texts put together with a separator are split where they were put together: their own
separators stand inside brackets or quotes.  Between spaces no part is refused.
-/
namespace TypeIdentity.Scan
open Text

variable {sep : Separator} {q : Quoting} {d : Depths} {part : List Char}

theorem isPlain_char (sep : Separator) : IsPlain sep.char := by
  cases sep <;> simp [IsPlain, Separator.char]

theorem isPlain_of_isBlank {c : Char} (h : isBlank c = true) : IsPlain c := by
  have visible : ∀ d ∈ ['(', ')', '[', ']', '\x7b', '\x7d', '"', '\\'], isBlank d = false :=
    List.all_iff_forall_prop.1 (by decide)
  intro hc
  rw [visible c hc] at h
  cases h

theorem step_of_isPlain {c : Char} (h : IsPlain c) (d : Depths) : d.step c = some d := by
  simp only [IsPlain, List.mem_cons, not_or] at h
  simp [Depths.step, h]

/-- An opening bracket leads below the top, and the closing one leads back. -/
theorem exists_step_opener (kind : Bracket) (d : Depths) :
    ∃ e, d.step kind.opener = some e ∧ e ≠ .top ∧ e.step kind.closer = some d := by
  cases kind with
  | round => exact ⟨{ d with round := d.round + 1 }, rfl, by simp [Depths.top], by
      simp [Depths.step, Bracket.closer]⟩
  | square => exact ⟨{ d with square := d.square + 1 }, rfl, by simp [Depths.top], by
      simp [Depths.step, Bracket.closer]⟩
  | curly => exact ⟨{ d with curly := d.curly + 1 }, rfl, by simp [Depths.top], by
      simp [Depths.step, Bracket.closer]⟩

/-! ## Passing over -/

theorem splitFrom_keep {c : Char} {e : Depths} (hq : q.isStructural c = true)
    (hd : d.step c = some e) (hc : c = sep.char → e ≠ .top) (rest : List Char) :
    splitFrom sep q d part (c :: rest) = splitFrom sep q e (c :: part) rest := by
  have hn : ¬(c = sep.char ∧ e = .top) := fun h => hc h.1 h.2
  rw [splitFrom, if_pos hq]
  simp only [hd]
  rw [if_neg hn]

theorem splitFrom_passes {text : List Char} (h : q.Passes text) (rest : List Char) :
    splitFrom sep q d part (text ++ rest) =
      splitFrom sep (q.run text) d (text.reverse ++ part) rest := by
  induction text generalizing q part with
  | nil => rfl
  | cons c text ih =>
    obtain ⟨hc, ht⟩ := h
    rw [List.cons_append, splitFrom, if_neg (by simp [hc]), ih ht]
    simp

theorem splitFrom_quote (s rest : List Char) :
    splitFrom sep .plain d part (quote s ++ rest) =
      splitFrom sep .plain d ((quote s).reverse ++ part) rest := by
  obtain ⟨hp, hr⟩ := Quoting.plain_quote s
  rw [splitFrom_passes hp, hr]

theorem splitFrom_plain {c : Char} (hc : IsPlain c) (hs : c = sep.char → d ≠ .top)
    (rest : List Char) :
    splitFrom sep .plain d part (c :: rest) = splitFrom sep .plain d (c :: part) rest :=
  splitFrom_keep (isStructural_plain hc) (step_of_isPlain hc d) hs rest

/-- A nested text is passed over, if the separator is a stop or means nothing at this depth. -/
theorem splitFrom_nested {stops text : List Char} (h : Nested stops text)
    (hs : d = .top → sep.char ∈ stops) (rest : List Char) :
    splitFrom sep .plain d part (text ++ rest) =
      splitFrom sep .plain d (text.reverse ++ part) rest := by
  induction h generalizing d part rest with
  | nil => rfl
  | char hc hn _ ih =>
    rw [List.cons_append, splitFrom_plain hc (fun he ht => hn (he ▸ hs ht)), ih hs]
    simp
  | quoted s _ ih =>
    rw [List.append_assoc, splitFrom_quote, ih hs]
    simp
  | bracket kind _ _ ihi ihr =>
    obtain ⟨e, ho, he, hc⟩ := exists_step_opener kind d
    have hopen : kind.opener = sep.char → e ≠ .top := fun _ => he
    have hclose : kind.closer = sep.char → d ≠ .top := by
      intro h
      exact absurd h.symm ((isPlain_char sep).ne_closer kind)
    rw [List.append_assoc, List.cons_append, List.cons_append,
      splitFrom_keep (isStructural_opener kind) ho hopen, ihi (fun ht => absurd ht he),
      splitFrom_keep (isStructural_closer kind) hc hclose, ihr hs]
    simp

/-! ## Texts put together -/

/-- Blanks that may stand around a part. -/
def Padding (sep : Separator) (pad : List Char) : Prop :=
  ∀ c ∈ pad, isBlank c = true ∧ c ≠ sep.char

theorem padding_nil (sep : Separator) : Padding sep [] := by
  intro c hc
  cases hc

theorem padding_space (h : sep ≠ .space) : Padding sep [' '] := by
  intro c hc
  obtain rfl := List.mem_singleton.1 hc
  cases sep with
  | space => exact absurd rfl h
  | comma | semicolon => decide

theorem Padding.nested {pad : List Char} (h : Padding sep pad) : Nested [sep.char] pad := by
  refine Nested.of_plain fun c hc => ⟨isPlain_of_isBlank (h c hc).1, ?_⟩
  simpa using (h c hc).2

theorem closePart_trimmed (sep : Separator) (before after : List Char) {text : List Char}
    (hb : ∀ c ∈ before, isBlank c = true) (ha : ∀ c ∈ after, isBlank c = true)
    (ht : Trimmed text) :
    closePart sep (before ++ text ++ after) = .ok [text] := by
  have htrim := trim_blank before after hb ha ht
  obtain ⟨c, rest, hc⟩ := List.exists_cons_of_ne_nil ht.ne_nil
  rw [hc] at htrim ⊢
  rw [closePart]
  simp only [htrim]

theorem splitFrom_cut (sep : Separator) (part rest : List Char) :
    splitFrom sep .plain .top part (sep.char :: rest) = (do
      let closed ← closePart sep part.reverse
      return closed ++ (← splitFrom sep .plain .top [] rest)) := by
  rw [splitFrom, if_pos (isStructural_plain (isPlain_char sep))]
  simp only [step_of_isPlain (isPlain_char sep)]
  rw [if_pos (by simp)]

/-- Texts with a separator between them, and blanks after each separator. -/
inductive Joined (sep : Separator) : List (List Char) → List Char → Prop
  | nil : Joined sep [] []
  | one (text : List Char) : Joined sep [text] text
  | cons (text : List Char) {pad next rest : List Char} {texts : List (List Char)}
      (hp : Padding sep pad) (h : Joined sep (next :: texts) rest) :
      Joined sep (text :: next :: texts) (text ++ sep.char :: (pad ++ rest))

theorem Joined.intercalate {pad : List Char} (hp : Padding sep pad) (texts : List (List Char)) :
    Joined sep texts (List.intercalate (sep.char :: pad) texts) := by
  induction texts with
  | nil => exact .nil
  | cons text texts ih =>
    cases texts with
    | nil =>
      rw [List.intercalate_singleton]
      exact .one text
    | cons next texts =>
      rw [List.intercalate_cons_cons, List.append_assoc, List.cons_append]
      exact .cons text hp ih

theorem Joined.nested {texts : List (List Char)} {all : List Char} (h : Joined sep texts all)
    (ht : ∀ t ∈ texts, Nested [] t) : Nested [] all := by
  induction h with
  | nil => exact .nil
  | one text => exact ht text (List.mem_singleton_self text)
  | cons text hp _ ih =>
    have hrest := ih fun t hm => ht t (List.mem_cons_of_mem _ hm)
    exact (ht text (List.mem_cons_self ..)).append
      (.char (isPlain_char sep) (by simp) (hp.nested.anywhere.append hrest))

theorem splitFrom_joined {after all : List Char} {texts : List (List Char)}
    (h : Joined sep texts all) (hne : texts ≠ []) (hafter : Padding sep after)
    (ht : ∀ t ∈ texts, Trimmed t ∧ Nested [sep.char] t) (hpart : ∀ c ∈ part, isBlank c = true) :
    splitFrom sep .plain .top part (all ++ after) = .ok texts := by
  have hpass (u : List Char) (hu : Nested [sep.char] u) (p v : List Char) :
      splitFrom sep .plain .top p (u ++ v) = splitFrom sep .plain .top (u.reverse ++ p) v :=
    splitFrom_nested hu (fun _ => List.mem_singleton_self _) v
  have hbefore {p : List Char} (hp : ∀ c ∈ p, isBlank c = true) :
      ∀ c ∈ p.reverse, isBlank c = true := by
    intro c hc
    exact hp c (List.mem_reverse.1 hc)
  induction h generalizing part with
  | nil => exact absurd rfl hne
  | one text =>
    obtain ⟨htrim, hnest⟩ := ht text (List.mem_singleton_self text)
    have hclose := closePart_trimmed sep part.reverse after (hbefore hpart)
      (fun c hc => (hafter c hc).1) htrim
    have hall := hpass after hafter.nested (text.reverse ++ part) []
    rw [List.append_nil] at hall
    rw [hpass text hnest, hall, splitFrom]
    simpa [Quoting.plain] using hclose
  | @cons text pad next rest texts hpad _ ih =>
    obtain ⟨htrim, hnest⟩ := ht text (List.mem_cons_self ..)
    have hclose := closePart_trimmed sep part.reverse [] (hbefore hpart) (by simp) htrim
    have hnext := ih (List.cons_ne_nil _ _) (fun t hm => ht t (List.mem_cons_of_mem _ hm))
      (hbefore fun c hc => (hpad c hc).1)
    have hshape : text ++ sep.char :: (pad ++ rest) ++ after =
        text ++ (sep.char :: (pad ++ (rest ++ after))) := by simp
    rw [hshape, hpass text hnest, splitFrom_cut, hpass pad hpad.nested, List.append_nil, hnext]
    rw [List.append_nil] at hclose
    simp only [List.reverse_append, List.reverse_reverse, hclose]
    rfl

theorem splitParts_joined {before all after : List Char} {texts : List (List Char)}
    (h : Joined sep texts all) (hbefore : Padding sep before) (hafter : Padding sep after)
    (ht : ∀ t ∈ texts, Trimmed t ∧ Nested [sep.char] t) :
    splitParts sep (before ++ (all ++ after)) = .ok texts := by
  have hblank {pad : List Char} (hp : Padding sep pad) : isBlankText pad = true :=
    List.all_eq_true.2 fun c hc => (hp c hc).1
  by_cases hne : texts = []
  · subst hne
    cases h with
    | nil =>
      have hall : isBlankText (before ++ ([] ++ after)) = true := by
        have hb := hblank hbefore
        have ha := hblank hafter
        simp only [isBlankText, List.nil_append, List.all_append] at hb ha ⊢
        rw [hb, ha]
        rfl
      rw [splitParts, if_pos hall]
  · obtain ⟨c, hc, hm⟩ : ∃ c, isBlank c = false ∧ c ∈ all := by
      cases h with
      | nil => exact absurd rfl hne
      | one =>
        obtain ⟨c, rest, rfl, hc⟩ := (ht all (List.mem_singleton_self all)).1.first
        exact ⟨c, hc, List.mem_cons_self ..⟩
      | cons text =>
        obtain ⟨c, rest, rfl, hc⟩ := (ht text (List.mem_cons_self ..)).1.first
        exact ⟨c, hc, List.mem_cons_self ..⟩
    have hvisible : isBlankText (before ++ (all ++ after)) = false := by
      simp only [isBlankText, List.all_eq_false]
      exact ⟨c, List.mem_append_right _ (List.mem_append_left _ hm), by simp [hc]⟩
    have hpart : ∀ c ∈ before.reverse ++ [], isBlank c = true := by
      simpa using fun c hc => (hbefore c hc).1
    rw [splitParts, hvisible, if_neg Bool.false_ne_true,
      splitFrom_nested hbefore.nested (fun _ => List.mem_singleton_self _),
      splitFrom_joined h hne hafter ht hpart]

/-- Nothing but the texts and what separates them; without texts there are no parts. -/
theorem splitParts_list {pad : List Char} {texts : List (List Char)} (hpad : Padding sep pad)
    (ht : ∀ t ∈ texts, Trimmed t ∧ Nested [sep.char] t) :
    splitParts sep (List.intercalate (sep.char :: pad) texts) = .ok texts := by
  have hsplit := splitParts_joined (.intercalate hpad texts) (padding_nil sep) (padding_nil sep) ht
  rwa [List.nil_append, List.append_nil] at hsplit

theorem splitFrom_word {text : List Char} (ht : Trimmed text) (h : Nested [sep.char] text) :
    splitFrom sep .plain .top [] text = .ok [text] := by
  have hone : ∀ t ∈ [text], Trimmed t ∧ Nested [sep.char] t := by simpa using ⟨ht, h⟩
  have hnone : ∀ c ∈ ([] : List Char), isBlank c = true := by simp
  have hsplit := splitFrom_joined (.one text) (by simp) (padding_nil sep) hone hnone
  rwa [List.append_nil] at hsplit

theorem splitParts_eq_ok_iff {text : List Char} {ps : List (List Char)} (ht : Trimmed text) :
    splitParts sep text = .ok ps ↔ splitFrom sep .plain .top [] text = .ok ps := by
  rw [splitParts, not_isBlankText_of_trimmed ht, if_neg Bool.false_ne_true]
  cases splitFrom sep .plain .top [] text <;> simp

theorem splitParts_word {text : List Char} (ht : Trimmed text) (h : Nested [sep.char] text) :
    splitParts sep text = .ok [text] :=
  (splitParts_eq_ok_iff ht).2 (splitFrom_word ht h)

/-! ## Spaces -/

/-- Between spaces nothing is refused, and a part that begins visibly is kept. -/
theorem closePart_space (part : List Char) :
    ∃ closed, closePart .space part = .ok closed ∧
      ∀ c tail, part = c :: tail → isBlank c = false → ∃ p, closed = [c :: p] := by
  cases ht : trim part with
  | nil =>
    refine ⟨[], by simp [closePart, ht], ?_⟩
    rintro c tail rfl hc
    obtain ⟨rest, hr⟩ := trim_cons hc tail
    rw [hr] at ht
    cases ht
  | cons c rest =>
    refine ⟨[c :: rest], by simp [closePart, ht], ?_⟩
    rintro c' tail rfl hc
    obtain ⟨rest', hr⟩ := trim_cons hc tail
    rw [hr] at ht
    exact ⟨rest, by rw [(List.cons.inj ht).1]⟩

/-! ## Parts are trimmed -/

theorem trim_of_mem_closePart {sep : Separator} {part p : List Char} {ps : List (List Char)}
    (h : closePart sep part = .ok ps) (hp : p ∈ ps) : trim p = p := by
  unfold closePart at h
  split at h
  · split at h <;> cases h
    cases hp
  · next c rest hc =>
    obtain rfl := Except.ok.inj h
    rw [List.mem_singleton.1 hp, ← hc, trim_trim]

theorem trim_of_mem_splitFrom {sep : Separator} {q : Quoting} {d : Depths} {part text p : List Char}
    {ps : List (List Char)} (h : splitFrom sep q d part text = .ok ps) (hp : p ∈ ps) :
    trim p = p := by
  fun_induction splitFrom sep q d part text generalizing ps with
  | case1 | case2 | case4 => cases h
  | case3 => exact trim_of_mem_closePart h hp
  | case5 q d part c rest _ e _ _ ih =>
    cases hc : closePart sep part.reverse with
    | error => simp [hc, bind, Except.bind] at h
    | ok closed =>
      cases hr : splitFrom sep q e [] rest with
      | error => simp [hc, hr, bind, Except.bind] at h
      | ok more =>
        simp [hc, hr, bind, Except.bind, pure, Except.pure] at h
        subst h
        rcases List.mem_append.1 hp with hp | hp
        · exact trim_of_mem_closePart hc hp
        · exact ih hr hp
  | case6 q d part c rest _ e _ _ ih => exact ih h hp
  | case7 q d part c rest _ ih => exact ih h hp

theorem trim_of_mem_splitParts {sep : Separator} {text p : List Char} {ps : List (List Char)}
    (h : splitParts sep text = .ok ps) (hp : p ∈ ps) : trim p = p := by
  unfold splitParts at h
  split at h
  · obtain rfl := Except.ok.inj h
    cases hp
  · split at h <;> cases h
    next hs => exact trim_of_mem_splitFrom hs hp

end TypeIdentity.Scan
