import TypeIdentity.Proofs.Scan.Matching

/-! # Splitting at spaces

Blanks before a word do not matter, and a word that is taken off leaves the words after it.  How a
text is split up to some point does not depend on what comes after, and a bracket that is closed at
the end of the text belongs to the last word, whatever stands in it.
-/
namespace TypeIdentity.Scan
open Text

variable {sep : Separator} {q : Quoting} {d : Depths} {part text : List Char}

/-! ## Blanks before words -/

theorem trim_append_left {pad : List Char} (hp : ∀ c ∈ pad, isBlank c = true) (text : List Char) :
    trim (pad ++ text) = trim text := by
  rw [trim, trim, trimStart, trimStart, List.dropWhile_append_of_pos hp]

theorem trim_ne_nil {c : Char} (hm : c ∈ text) (hc : isBlank c = false) : trim text ≠ [] := by
  have hvisible : text.dropWhile isBlank ≠ [] := by
    intro he
    rw [List.dropWhile_eq_nil_iff.1 he c hm] at hc
    cases hc
  obtain ⟨d, rest, hd⟩ := List.exists_cons_of_ne_nil hvisible
  have hfirst : isBlank d = false := by
    have hhead := List.head?_dropWhile_not isBlank text
    simpa [hd] using hhead
  obtain ⟨rest', hr⟩ := trim_cons hfirst rest
  have hsplit : text.takeWhile isBlank ++ text.dropWhile isBlank = text :=
    List.takeWhile_append_dropWhile
  rw [← hsplit, trim_append_left fun _ hb => List.mem_takeWhile_imp hb, hd, hr]
  exact List.cons_ne_nil d rest'

theorem closePart_visible {c : Char} (hm : c ∈ part) (hc : isBlank c = false) :
    closePart sep part = .ok [trim part] := by
  unfold closePart
  split
  · next hn => exact absurd hn (trim_ne_nil hm hc)
  · next d rest hd => rw [hd]

theorem closePart_pad {pad : List Char} (hp : ∀ c ∈ pad, isBlank c = true) (part : List Char) :
    closePart sep (pad ++ part) = closePart sep part := by
  rw [closePart, closePart, trim_append_left hp]

/-- Blanks before the current part do not change the parts. -/
theorem splitFrom_pad {pad : List Char} (hp : ∀ c ∈ pad, isBlank c = true) :
    splitFrom sep q d (part ++ pad) text = splitFrom sep q d part text := by
  have hclose (part : List Char) :
      closePart sep (part ++ pad).reverse = closePart sep part.reverse := by
    rw [List.reverse_append]
    exact closePart_pad (fun c hc => hp c (List.mem_reverse.1 hc)) _
  fun_induction splitFrom sep q d part text with
  | case1 q d part hq => rw [splitFrom, if_pos hq]
  | case2 q d part hq hd => rw [splitFrom, if_neg hq, if_pos hd]
  | case3 q d part hq hd => rw [splitFrom, if_neg hq, if_neg hd, hclose]
  | case4 q d part c rest hs hn => rw [splitFrom, if_pos hs, hn]
  | case5 q d part c rest hs e hd hcut ih =>
    rw [splitFrom, if_pos hs, hd]
    simp only [if_pos hcut, hclose]
  | case6 q d part c rest hs e hd hcut ih =>
    rw [splitFrom, if_pos hs, hd]
    simp only [if_neg hcut]
    exact ih
  | case7 q d part c rest hs ih =>
    rw [splitFrom, if_neg hs]
    exact ih

theorem splitFrom_space_pad {pad : List Char} (hp : ∀ c ∈ pad, isBlank c = true)
    (text : List Char) :
    splitFrom .space .plain .top [] (pad ++ text) = splitFrom .space .plain .top [] text := by
  induction pad with
  | nil => rfl
  | cons c pad ih =>
    have hrest := ih fun d hd => hp d (List.mem_cons_of_mem _ hd)
    have hc := hp c (List.mem_cons_self ..)
    by_cases hs : c = ' '
    · subst hs
      have hcut := splitFrom_cut .space [] (pad ++ text)
      have hnone : closePart .space ([] : List Char).reverse = .ok [] := rfl
      rw [hnone, hrest] at hcut
      rw [List.cons_append]
      refine hcut.trans ?_
      cases splitFrom .space .plain .top [] text <;> rfl
    · have hsep : c = Separator.space.char → Depths.top ≠ .top := fun he => absurd he hs
      have hone : ∀ d ∈ [c], isBlank d = true := by simpa using hc
      have hpad : splitFrom .space .plain .top ([] ++ [c]) (pad ++ text) =
          splitFrom .space .plain .top [] (pad ++ text) := splitFrom_pad hone
      rw [List.cons_append, splitFrom_plain (isPlain_of_isBlank hc) hsep, ← hrest]
      exact hpad

/-! ## The first word -/

/-- The first part ends where the text does or at a separator outside of brackets and quotes. -/
theorem exists_first {ps : List (List Char)} (h : splitFrom sep q d part text = .ok ps) :
    closePart sep (part.reverse ++ text) = .ok ps ∨
      ∃ u v closed more, text = u ++ sep.char :: v ∧
        closePart sep (part.reverse ++ u) = .ok closed ∧
        splitFrom sep .plain .top [] v = .ok more ∧ ps = closed ++ more := by
  fun_induction splitFrom sep q d part text with
  | case1 => cases h
  | case2 => cases h
  | case3 => exact .inl (by simpa using h)
  | case4 => cases h
  | case5 q d part c rest hs e hd hcut ih =>
    obtain ⟨rfl, rfl⟩ := hcut
    obtain rfl := eq_plain_of_isStructural hs
    cases hc : closePart sep part.reverse with
    | error flaw =>
      rw [hc] at h
      cases h
    | ok closed =>
      cases hr : splitFrom sep .plain .top [] rest with
      | error flaw =>
        rw [hc, hr] at h
        cases h
      | ok more =>
        rw [hc, hr] at h
        exact .inr ⟨[], rest, closed, more, rfl, by simpa using hc, hr, (Except.ok.inj h).symm⟩
  | case6 q d part c rest hs e hd hcut ih =>
    rcases ih h with hc | ⟨u, v, closed, more, rfl, hc, hm, rfl⟩
    · exact .inl (by simpa using hc)
    · exact .inr ⟨c :: u, v, closed, more, rfl, by simpa using hc, hm, rfl⟩
  | case7 q d part c rest hs ih =>
    rcases ih h with hc | ⟨u, v, closed, more, rfl, hc, hm, rfl⟩
    · exact .inl (by simpa using hc)
    · exact .inr ⟨c :: u, v, closed, more, rfl, by simpa using hc, hm, rfl⟩

theorem closePart_eq_singleton {part p : List Char} {ps : List (List Char)}
    (h : closePart sep part = .ok (p :: ps)) : p = trim part ∧ ps = [] := by
  unfold closePart at h
  split at h
  · split at h <;> cases h
  · next c rest hc =>
    obtain ⟨rfl, rfl⟩ := List.cons.inj (Except.ok.inj h)
    exact ⟨hc.symm, rfl⟩

theorem exists_pad_of_first {text : List Char}
    (h : ∃ c rest, text = c :: rest ∧ isBlank c = false) :
    ∃ pad, text = trim text ++ pad ∧ ∀ c ∈ pad, isBlank c = true := by
  obtain ⟨c, rest, rfl, hc⟩ := h
  have hstart : trimStart (c :: rest) = c :: rest := List.dropWhile_cons_of_neg (by simp [hc])
  refine ⟨((c :: rest).reverse.takeWhile isBlank).reverse, ?_, ?_⟩
  · rw [trim, hstart, trimEnd_eq, ← List.reverse_append, List.takeWhile_append_dropWhile,
      List.reverse_reverse]
  · intro d hd
    exact List.mem_takeWhile_imp (List.mem_reverse.1 hd)

theorem exists_pad_of_last {text : List Char}
    (h : ∃ init c, text = init ++ [c] ∧ isBlank c = false) :
    ∃ pad, text = pad ++ trim text ∧ (∀ c ∈ pad, isBlank c = true) ∧ Trimmed (trim text) := by
  obtain ⟨init, c, rfl, hc⟩ := h
  have hvisible : trimStart (init ++ [c]) ≠ [] := by
    intro he
    have hb := List.dropWhile_eq_nil_iff.1 he c (by simp)
    rw [hc] at hb
    cases hb
  have hsplit : (init ++ [c]).takeWhile isBlank ++ trimStart (init ++ [c]) = init ++ [c] :=
    List.takeWhile_append_dropWhile
  have hlast : ∃ init' c', trimStart (init ++ [c]) = init' ++ [c'] ∧ isBlank c' = false := by
    obtain ⟨init', c', hl⟩ := (List.eq_nil_or_concat' _).resolve_left hvisible
    rw [hl, ← List.append_assoc] at hsplit
    obtain ⟨-, rfl⟩ := List.append_singleton_inj.1 hsplit
    exact ⟨init', c', hl, hc⟩
  have htrim : trim (init ++ [c]) = trimStart (init ++ [c]) := by
    have hend := trimEnd_blank [] (by simp) hlast
    rw [List.append_nil] at hend
    exact hend
  refine ⟨(init ++ [c]).takeWhile isBlank, by rw [htrim, hsplit], ?_, ?_⟩
  · exact fun d hd => List.mem_takeWhile_imp hd
  · exact trimmed_trim (htrim ▸ hvisible)

/-- A text that begins visibly has a word there. -/
theorem words_ne_nil {words : List (List Char)} (ht : Trimmed text)
    (h : splitParts .space text = .ok words) : words ≠ [] := by
  obtain ⟨c, rest, rfl, hc⟩ := ht.first
  have hvisible {part : List Char} {closed : List (List Char)} (hm : c ∈ part)
      (hclosed : closePart .space part = .ok closed) : closed ≠ [] := by
    obtain rfl := Except.ok.inj ((closePart_visible hm hc).symm.trans hclosed)
    exact List.cons_ne_nil _ _
  rcases exists_first ((splitParts_eq_ok_iff ht).1 h) with
    hclosed | ⟨u, v, closed, more, htext, hclosed, -, rfl⟩
  · exact hvisible (List.mem_cons_self ..) hclosed
  · cases u with
    | nil =>
      obtain ⟨rfl, -⟩ := List.cons.inj htext
      exact absurd hc (by decide)
    | cons d u =>
      obtain ⟨rfl, -⟩ := List.cons.inj htext
      exact List.append_ne_nil_of_left_ne_nil (hvisible (List.mem_cons_self ..) hclosed) more

/-- A text begins with its first word, which ends where the text does or before a space. -/
theorem exists_first_word {text name : List Char} {more : List (List Char)} (ht : Trimmed text)
    (h : splitParts .space text = .ok (name :: more)) :
    text = name ∧ more = [] ∨ ∃ pad v, text = name ++ (pad ++ ' ' :: v) ∧
      (∀ c ∈ pad, isBlank c = true) ∧ splitFrom .space .plain .top [] v = .ok more := by
  rcases exists_first ((splitParts_eq_ok_iff ht).1 h) with
    hc | ⟨u, v, closed, parts, rfl, hc, hm, hps⟩
  · obtain ⟨hname, hmore⟩ := closePart_eq_singleton hc
    exact .inl ⟨(hname.trans (trim_of_trimmed ht)).symm, hmore⟩
  have hu : ∃ c rest, u = c :: rest ∧ isBlank c = false := by
    obtain ⟨c, rest, he, hc⟩ := ht.first
    cases u with
    | nil =>
      obtain ⟨rfl, -⟩ := List.cons.inj he
      exact absurd hc (by decide)
    | cons d u =>
      obtain ⟨rfl, -⟩ := List.cons.inj he
      exact ⟨d, u, rfl, hc⟩
  obtain ⟨pad, hpad, hblank⟩ := exists_pad_of_first hu
  have hword : name = trim u ∧ more = parts := by
    obtain ⟨c, rest, he, hc'⟩ := hu
    obtain ⟨closed', hclosed, hfirst⟩ := closePart_space u
    obtain ⟨p, rfl⟩ := hfirst c rest he hc'
    obtain rfl : closed = [c :: p] := Except.ok.inj (hc.symm.trans hclosed)
    obtain ⟨rfl, rfl⟩ := List.cons.inj hps
    exact ⟨(closePart_eq_singleton hclosed).1, rfl⟩
  obtain ⟨rfl, rfl⟩ := hword
  refine .inr ⟨pad, v, ?_, hblank, hm⟩
  rw [← List.append_assoc, ← hpad]
  rfl

/-- Without its first word a text has the other words. -/
theorem splitParts_drop {text name : List Char} {more : List (List Char)} (ht : Trimmed text)
    (h : splitParts .space text = .ok (name :: more)) (hne : more ≠ []) :
    splitParts .space (trim (text.drop name.length)) = .ok more := by
  rcases exists_first_word ht h with ⟨-, hmore⟩ | ⟨pad, v, rfl, hblank, hm⟩
  · exact absurd hmore hne
  have hdrop : (name ++ (pad ++ ' ' :: v)).drop name.length = pad ++ ([' '] ++ v) := List.drop_left
  have hv : ∃ init c, v = init ++ [c] ∧ isBlank c = false := by
    obtain ⟨init, c, he, hc⟩ := ht.last
    rcases List.eq_nil_or_concat' v with rfl | ⟨init', c', rfl⟩
    · rw [← List.append_assoc] at he
      obtain ⟨-, rfl⟩ := List.append_singleton_inj.1 he
      exact absurd hc (by decide)
    · rw [← List.cons_append, ← List.append_assoc, ← List.append_assoc] at he
      obtain ⟨-, rfl⟩ := List.append_singleton_inj.1 he
      exact ⟨init', c', rfl, hc⟩
  obtain ⟨lead, hlead, hleads, htrimmed⟩ := exists_pad_of_last hv
  have hrest : splitFrom .space .plain .top [] (trim v) = .ok more := by
    rw [← splitFrom_space_pad hleads, ← hlead]
    exact hm
  rw [hdrop, trim_append_left hblank, trim_append_left isBlank_space]
  exact (splitParts_eq_ok_iff htrimmed).2 hrest

/-! ## What stands in the last brackets -/

/-- The words that end inside a nested text do not depend on what comes after it. -/
theorem exists_words {stops base : List Char} (h : Nested stops base) (part : List Char) :
    ∃ ps part', ∀ text, splitFrom .space .plain .top part (base ++ text) =
      (ps ++ ·) <$> splitFrom .space .plain .top part' text := by
  induction h generalizing part with
  | nil =>
    refine ⟨[], part, fun text => ?_⟩
    rw [List.nil_append]
    cases splitFrom .space .plain .top part text <;> rfl
  | @char _ rest c hc _ _ ih =>
    by_cases hs : c = ' '
    · subst hs
      obtain ⟨closed, hclosed, -⟩ := closePart_space part.reverse
      obtain ⟨ps, part', hrest⟩ := ih []
      refine ⟨closed ++ ps, part', fun text => ?_⟩
      have hcut := splitFrom_cut .space part (rest ++ text)
      rw [hclosed, hrest] at hcut
      refine hcut.trans ?_
      cases splitFrom .space .plain .top part' text with
      | error flaw => rfl
      | ok more => exact congrArg Except.ok (List.append_assoc ..).symm
    · have hsep : c = Separator.space.char → Depths.top ≠ .top := fun he => absurd he hs
      obtain ⟨ps, part', hrest⟩ := ih (c :: part)
      exact ⟨ps, part', fun text => (splitFrom_plain hc hsep _).trans (hrest text)⟩
  | @quoted _ rest s _ ih =>
    obtain ⟨ps, part', hrest⟩ := ih ((quote s).reverse ++ part)
    refine ⟨ps, part', fun text => ?_⟩
    rw [List.append_assoc, splitFrom_quote, hrest]
  | @bracket _ inner rest kind hi _ _ ihr =>
    have hb : Nested [' '] (kind.opener :: inner ++ [kind.closer]) := Nested.brackets kind hi
    obtain ⟨ps, part', hrest⟩ := ihr ((kind.opener :: inner ++ [kind.closer]).reverse ++ part)
    refine ⟨ps, part', fun text => ?_⟩
    have htext : kind.opener :: inner ++ kind.closer :: rest ++ text =
        kind.opener :: inner ++ [kind.closer] ++ (rest ++ text) := by simp
    rw [htext, splitFrom_nested hb (fun _ => List.mem_singleton_self _), hrest]

theorem square_of_step {c : Char} {d e : Depths} (h : d.step c = some e) :
    (c = '[' → e.square = d.square + 1) ∧ (c = ']' → d.square = e.square + 1) ∧
      (c ≠ '[' → c ≠ ']' → e.square = d.square) := by
  unfold Depths.step at h
  grind

theorem exists_step_of_splitFrom {c : Char} {rest : List Char} {ps : List (List Char)}
    (hs : q.isStructural c = true) (hc : ∀ e, d.step c = some e → c = sep.char → e ≠ .top)
    (h : splitFrom sep q d part (c :: rest) = .ok ps) :
    ∃ e, d.step c = some e ∧ splitFrom sep q e (c :: part) rest = .ok ps := by
  cases hd : d.step c with
  | none =>
    rw [splitFrom, if_pos hs, hd] at h
    cases h
  | some e => exact ⟨e, rfl, (splitFrom_keep hs hd (hc e hd) rest).symm.trans h⟩

/-- Nothing is cut off before the bracket that ends the text. -/
theorem closePart_of_cutClose {depth : Nat} {inner : List Char} {ps : List (List Char)}
    (hc : cutClose .square depth q text = some (inner, [])) (hd : d.square = depth + 1)
    (h : splitFrom sep q d part text = .ok ps) : closePart sep (part.reverse ++ text) = .ok ps := by
  have hcut {c : Char} {cut : Option (List Char × List Char)} {u : List Char}
      (hm : (cut.map fun p => (c :: p.1, p.2)) = some (u, [])) : ∃ v, cut = some (v, []) := by
    obtain ⟨⟨v, w⟩, hr, he⟩ := Option.map_eq_some_iff.1 hm
    obtain ⟨-, rfl⟩ := Prod.mk.inj he
    exact ⟨v, hr⟩
  have hbracket (kind : Bracket) : kind.opener ≠ sep.char ∧ kind.closer ≠ sep.char :=
    ⟨((isPlain_char sep).ne_opener kind).symm, ((isPlain_char sep).ne_closer kind).symm⟩
  fun_induction cutClose .square depth q text generalizing d part inner with
  | case1 => cases hc
  | case2 q c rest hclose =>
    obtain ⟨hs, rfl⟩ : q.isStructural c = true ∧ c = ']' := by
      simpa [Bracket.closer] using hclose
    obtain rfl : rest = [] := (Prod.mk.inj (Option.some.inj hc)).2
    obtain ⟨e, -, he⟩ := exists_step_of_splitFrom hs
      (fun e _ hsep => absurd hsep (hbracket .square).2) h
    rw [splitFrom] at he
    split at he
    · cases he
    · split at he
      · cases he
      · simpa using he
  | case3 q c rest hclose depth ih =>
    obtain ⟨hs, rfl⟩ : q.isStructural c = true ∧ c = ']' := by
      simpa [Bracket.closer] using hclose
    obtain ⟨e, hstep, he⟩ := exists_step_of_splitFrom hs
      (fun e _ hsep => absurd hsep (hbracket .square).2) h
    have hsquare := (square_of_step hstep).2.1 rfl
    obtain ⟨v, hv⟩ := hcut hc
    simpa using ih hv (by omega) he
  | case4 depth q c rest hclose hopen ih =>
    obtain ⟨hs, rfl⟩ : q.isStructural c = true ∧ c = '[' := by
      simpa [Bracket.opener] using hopen
    obtain ⟨e, hstep, he⟩ := exists_step_of_splitFrom hs
      (fun e _ hsep => absurd hsep (hbracket .square).1) h
    have hsquare := (square_of_step hstep).1 rfl
    obtain ⟨v, hv⟩ := hcut hc
    simpa using ih hv (by omega) he
  | case5 depth q c rest hclose hopen ih =>
    obtain ⟨v, hv⟩ := hcut hc
    by_cases hs : q.isStructural c = true
    · have hne : c ≠ '[' ∧ c ≠ ']' := by
        simp only [hs, Bool.true_and, beq_iff_eq] at hclose hopen
        exact ⟨hopen, hclose⟩
      have hsame {e : Depths} (hstep : d.step c = some e) : e.square = d.square :=
        (square_of_step hstep).2.2 hne.1 hne.2
      have htop (e : Depths) (hstep : d.step c = some e) (_ : c = sep.char) : e ≠ .top := by
        rintro rfl
        have := hsame hstep
        simp [Depths.top] at this
        omega
      obtain ⟨e, hstep, he⟩ := exists_step_of_splitFrom hs htop h
      rw [step_of_isStructural hs] at hv ih
      simpa using ih hv (by rw [hsame hstep, hd]) he
    · rw [splitFrom, if_neg hs] at h
      simpa using ih hv hd h

theorem words_map {words ps : List (List Char)} {x : Except Flaw (List (List Char))}
    (h : (words ++ ·) <$> x = .ok ps) : ∃ more, x = .ok more ∧ ps = words ++ more := by
  cases x with
  | error => cases h
  | ok more => exact ⟨more, rfl, (Except.ok.inj h).symm⟩

/-- What stands in the brackets at the end of a text does not change the words before the last. -/
theorem words_of_bracket {stops base inner other source : List Char} {ps ps' : List (List Char)}
    (hbase : Nested stops base) (hother : Nested [] other)
    (hsource : Trimmed source) (hspan : firstSpan .square source = .ok (some ⟨base, inner, []⟩))
    (hps : splitParts .space source = .ok ps)
    (ht : Trimmed (base ++ '[' :: (other ++ [']'])))
    (hps' : splitParts .space (base ++ '[' :: (other ++ [']'])) = .ok ps') :
    ∃ words last last', ps = words ++ [last] ∧ ps' = words ++ [last'] := by
  have hmatched := firstSpan_eq_some_iff.1 hspan
  have hclose : cutClose .square 0 .plain (inner ++ [']']) = some (inner, []) :=
    cutClose_eq_some_iff.2 ⟨rfl, hmatched.closed, balanced_iff.1 hmatched.balanced⟩
  obtain rfl := firstSpan_eq_append hspan
  obtain ⟨words, part, hwords⟩ := exists_words hbase []
  have hsplit := (splitParts_eq_ok_iff hsource).1 hps
  have hsplit' := (splitParts_eq_ok_iff ht).1 hps'
  rw [hwords] at hsplit hsplit'
  obtain ⟨more, hmore, rfl⟩ := words_map hsplit
  obtain ⟨more', hmore', rfl⟩ := words_map hsplit'
  have hlast {tail : List Char} {closed : List (List Char)} (hm : ']' ∈ tail)
      (hc : closePart .space tail = .ok closed) : closed = [trim tail] :=
    (Except.ok.inj ((closePart_visible hm (by decide)).symm.trans hc)).symm
  have hbrackets : Nested [' '] ('[' :: other ++ [']']) := Nested.brackets .square hother
  have hclosed : closePart .space (part.reverse ++ ('[' :: other ++ [']'])) = .ok more' := by
    have hpass : splitFrom .space .plain .top part ('[' :: other ++ [']'] ++ []) =
        splitFrom .space .plain .top (('[' :: other ++ [']']).reverse ++ part) [] :=
      splitFrom_nested hbrackets (fun _ => List.mem_singleton_self _) []
    rw [List.append_nil, splitFrom] at hpass
    simpa [Quoting.plain] using hpass.symm.trans hmore'
  have hopen (e : Depths) (_ : Depths.top.step '[' = some e) (hs : '[' = Separator.space.char) :
      e ≠ .top := absurd hs (by decide)
  obtain ⟨e, hstep, he⟩ := exists_step_of_splitFrom rfl hopen hmore
  have hdepth : e.square = 0 + 1 := (square_of_step hstep).1 rfl
  have hclosed' := closePart_of_cutClose hclose hdepth he
  refine ⟨words, _, _, congrArg _ (hlast ?_ hclosed'), congrArg _ (hlast ?_ hclosed)⟩
  · simp
  · simp

end TypeIdentity.Scan
