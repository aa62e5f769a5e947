import TypeIdentity.Proofs.Scan.Balance

/-! # The bracket that closes the first one

Of a text a scanner for brackets sees the characters outside of quotes and escapes.  It cuts the text
at the first bracket of a kind and at the one that closes it, and there is one such place at most: a
span is found exactly where the brackets of the kind, counted by themselves, match.
-/
namespace TypeIdentity.Scan
open Text

variable {kind : Bracket} {q : Quoting} {depth : Nat} {c : Char} {text u v : List Char}

/-! ## Texts without brackets -/

/-- No bracket of the kind is among the characters. -/
def Unbracketed (kind : Bracket) (text : List Char) : Prop :=
  kind.opener ∉ text ∧ kind.closer ∉ text

instance (kind : Bracket) (text : List Char) : Decidable (Unbracketed kind text) :=
  inferInstanceAs (Decidable (_ ∧ _))

theorem unbracketed_cons :
    Unbracketed kind (c :: text) ↔ (c ≠ kind.opener ∧ c ≠ kind.closer) ∧ Unbracketed kind text := by
  simp only [Unbracketed, List.mem_cons, not_or, ne_comm (a := c)]
  tauto

theorem unbracketed_append :
    Unbracketed kind (u ++ v) ↔ Unbracketed kind u ∧ Unbracketed kind v := by
  simp only [Unbracketed, List.mem_append, not_or]
  tauto

/-- The scanner sees no bracket of the kind at any place of the text. -/
theorem unbracketed_structural_iff : Unbracketed kind (q.structural text) ↔
    ∀ before c after, text = before ++ c :: after → (q.run before).isStructural c = true →
      c ∉ [kind.opener, kind.closer] := by
  constructor
  · intro h before c after he hs
    have hm : c ∈ q.structural text := Quoting.mem_structural.2 ⟨before, after, he, hs⟩
    simp only [List.mem_cons, List.not_mem_nil, or_false, not_or]
    refine ⟨?_, ?_⟩
    · rintro rfl
      exact h.1 hm
    · rintro rfl
      exact h.2 hm
  · intro h
    constructor
    · intro hm
      obtain ⟨before, after, he, hs⟩ := Quoting.mem_structural.1 hm
      exact h before _ after he hs (by simp)
    · intro hm
      obtain ⟨before, after, he, hs⟩ := Quoting.mem_structural.1 hm
      exact h before _ after he hs (by simp)

theorem QuotesClosed.unbracketed (h : QuotesClosed text)
    (hu : Unbracketed kind (Quoting.plain.exposed text)) :
    Unbracketed kind (Quoting.plain.structural text) := by
  rw [h.structural_eq]
  exact ⟨fun hm => hu.1 (List.mem_of_mem_filter hm), fun hm => hu.2 (List.mem_of_mem_filter hm)⟩

/-! ## One character at a time -/

/-- A character opens a bracket of the kind, closes one, or is passed over. -/
theorem bracket_cases (kind : Bracket) (q : Quoting) (c : Char) :
    (q = .plain ∧ c = kind.opener) ∨ (q = .plain ∧ c = kind.closer) ∨
      (q.isStructural c = true → c ≠ kind.opener ∧ c ≠ kind.closer) := by
  by_cases hs : q.isStructural c = true
  · have hq := eq_plain_of_isStructural hs
    by_cases ho : c = kind.opener
    · exact .inl ⟨hq, ho⟩
    by_cases hc : c = kind.closer
    · exact .inr (.inl ⟨hq, hc⟩)
    · exact .inr (.inr fun _ => ⟨ho, hc⟩)
  · exact .inr (.inr fun h => absurd h hs)

section Skipped
variable (hskip : q.isStructural c = true → c ≠ kind.opener ∧ c ≠ kind.closer)
include hskip

theorem unbracketed_skip : Unbracketed kind (q.structural (c :: text)) ↔
    Unbracketed kind ((q.step c).structural text) := by
  rw [Quoting.structural]
  split
  · next hs => rw [unbracketed_cons, and_iff_right (hskip hs)]
  · exact Iff.rfl

theorem closesFrom_skip : ClosesFrom kind depth (q.structural (c :: text)) ↔
    ClosesFrom kind depth ((q.step c).structural text) := by
  rw [Quoting.structural]
  split
  · next hs => exact closesFrom_other (hskip hs).1 (hskip hs).2
  · exact Iff.rfl

theorem cutOpen_skip (text : List Char) : cutOpen kind q (c :: text) =
    (·.map fun p => (c :: p.1, p.2)) <$> cutOpen kind (q.step c) text := by
  have hopen : ¬(q.isStructural c && c == kind.opener) = true := by
    simpa using fun hs => (hskip hs).1
  have hclose : ¬(q.isStructural c && c == kind.closer) = true := by
    simpa using fun hs => (hskip hs).2
  rw [cutOpen, if_neg hopen, if_neg hclose]

/-- A bracket that is passed over is not where a text is cut. -/
theorem exists_cons_of_skip {b : Char} (hb : b = kind.opener ∨ b = kind.closer)
    (he : c :: text = u ++ b :: v) (hrun : q.run u = .plain) :
    ∃ u', u = c :: u' ∧ text = u' ++ b :: v := by
  cases u with
  | nil =>
    obtain ⟨rfl, -⟩ := List.cons.inj he
    obtain rfl : q = .plain := hrun
    rcases hb with rfl | rfl
    · exact absurd rfl (hskip (isStructural_opener kind)).1
    · exact absurd rfl (hskip (isStructural_closer kind)).2
  | cons d u =>
    obtain ⟨rfl, rfl⟩ := List.cons.inj he
    exact ⟨u, rfl, rfl⟩

end Skipped

section Seen
variable (kind : Bracket) (text : List Char)

theorem structural_opener : Quoting.plain.structural (kind.opener :: text) =
    kind.opener :: Quoting.plain.structural text :=
  Quoting.structural_cons_of_isStructural (isStructural_opener kind) text

theorem structural_closer : Quoting.plain.structural (kind.closer :: text) =
    kind.closer :: Quoting.plain.structural text :=
  Quoting.structural_cons_of_isStructural (isStructural_closer kind) text

theorem run_opener : Quoting.plain.run (kind.opener :: text) = Quoting.plain.run text := by
  rw [Quoting.run_cons, step_opener]

theorem run_closer : Quoting.plain.run (kind.closer :: text) = Quoting.plain.run text := by
  rw [Quoting.run_cons, step_closer]

end Seen

theorem unbracketed_opener : ¬Unbracketed kind (Quoting.plain.structural (kind.opener :: text)) := by
  rw [structural_opener]
  exact fun h => h.1 (List.mem_cons_self ..)

theorem unbracketed_closer : ¬Unbracketed kind (Quoting.plain.structural (kind.closer :: text)) := by
  rw [structural_closer]
  exact fun h => h.2 (List.mem_cons_self ..)

/-! ## The first bracket -/

theorem cutOpen_opener (text : List Char) :
    cutOpen kind .plain (kind.opener :: text) = .ok (some ([], text)) := by
  simp [cutOpen, isStructural_opener]

theorem cutOpen_closer (text : List Char) :
    cutOpen kind .plain (kind.closer :: text) = .error () := by
  simp [cutOpen, isStructural_closer, (opener_ne_closer kind kind).symm]

/-- Nothing is cut exactly where there is no bracket to be seen. -/
theorem cutOpen_eq_none_iff :
    cutOpen kind q text = .ok none ↔ Unbracketed kind (q.structural text) := by
  induction text generalizing q with
  | nil => simp [cutOpen, Unbracketed, Quoting.structural]
  | cons c text ih =>
    rcases bracket_cases kind q c with ⟨rfl, rfl⟩ | ⟨rfl, rfl⟩ | hskip
    · rw [cutOpen_opener]
      exact iff_of_false (by simp) unbracketed_opener
    · rw [cutOpen_closer]
      exact iff_of_false (by simp) unbracketed_closer
    · rw [cutOpen_skip hskip, unbracketed_skip hskip, ← ih]
      rcases cutOpen kind (q.step c) text with _ | _ | _ <;> simp [Functor.map, Except.map]

theorem cutOpen_eq_some_iff : cutOpen kind q text = .ok (some (u, v)) ↔
    text = u ++ kind.opener :: v ∧ q.run u = .plain ∧ Unbracketed kind (q.structural u) := by
  induction text generalizing q u with
  | nil => simp [cutOpen]
  | cons c text ih =>
    rcases bracket_cases kind q c with ⟨rfl, rfl⟩ | ⟨rfl, rfl⟩ | hskip
    · rw [cutOpen_opener]
      constructor
      · intro h
        obtain ⟨rfl, rfl⟩ : [] = u ∧ text = v := by simpa using h
        exact ⟨rfl, rfl, by simp [Unbracketed, Quoting.structural]⟩
      · rintro ⟨he, -, hu⟩
        cases u with
        | nil =>
          obtain ⟨-, rfl⟩ := List.cons.inj he
          rfl
        | cons d u =>
          obtain ⟨rfl, -⟩ := List.cons.inj he
          exact absurd hu unbracketed_opener
    · rw [cutOpen_closer]
      refine iff_of_false (by simp) ?_
      rintro ⟨he, -, hu⟩
      cases u with
      | nil => exact opener_ne_closer kind kind (List.cons.inj he).1.symm
      | cons d u =>
        obtain ⟨rfl, -⟩ := List.cons.inj he
        exact unbracketed_closer hu
    · rw [cutOpen_skip hskip]
      constructor
      · intro h
        rcases hr : cutOpen kind (q.step c) text with _ | _ | ⟨u', v'⟩ <;>
          simp only [hr, Functor.map, Except.map, Option.map_none, Option.map_some, reduceCtorEq,
            Except.ok.injEq, Option.some.injEq, Prod.mk.injEq] at h
        obtain ⟨rfl, rfl⟩ := h
        obtain ⟨rfl, hrun, hu⟩ := ih.1 hr
        exact ⟨rfl, hrun, (unbracketed_skip hskip).2 hu⟩
      · rintro ⟨he, hrun, hu⟩
        obtain ⟨u', rfl, rfl⟩ := exists_cons_of_skip hskip (.inl rfl) he hrun
        rw [ih.2 ⟨rfl, hrun, (unbracketed_skip hskip).1 hu⟩]
        rfl

/-! ## The bracket that closes it -/

theorem passed_singleton_eq_some {cut : Option (List Char × List Char)} :
    passed [c] cut = some (u, v) ↔ ∃ u', u = c :: u' ∧ cut = some (u', v) := by
  rcases cut with _ | ⟨u', v'⟩
  · simp [passed]
  · simp only [passed, Option.map_some, Option.some.injEq, Prod.mk.injEq, List.singleton_append]
    constructor
    · rintro ⟨rfl, rfl⟩
      exact ⟨u', rfl, rfl, rfl⟩
    · rintro ⟨_, rfl, rfl, rfl⟩
      exact ⟨rfl, rfl⟩

/-- Where `depth` more brackets are open, as many are closed before the one that is looked for. -/
theorem cutClose_eq_some_iff : cutClose kind depth q text = some (u, v) ↔
    text = u ++ kind.closer :: v ∧ q.run u = .plain ∧ ClosesFrom kind depth (q.structural u) := by
  induction text generalizing q depth u with
  | nil => simp [cutClose]
  | cons c text ih =>
    rcases bracket_cases kind q c with ⟨rfl, rfl⟩ | ⟨rfl, rfl⟩ | hskip
    · rw [cutClose_opener, passed_singleton_eq_some]
      constructor
      · rintro ⟨u', rfl, hcut⟩
        obtain ⟨rfl, hrun, hcloses⟩ := ih.1 hcut
        refine ⟨rfl, (run_opener kind u').trans hrun, ?_⟩
        rw [structural_opener, closesFrom_opener]
        exact hcloses
      · rintro ⟨he, hrun, hcloses⟩
        rcases List.cons_eq_append_iff.1 he with ⟨-, hb⟩ | ⟨u', rfl, rfl⟩
        · exact absurd (List.cons.inj hb).1.symm (opener_ne_closer kind kind)
        · rw [structural_opener, closesFrom_opener] at hcloses
          exact ⟨u', rfl, ih.2 ⟨rfl, (run_opener kind u').symm.trans hrun, hcloses⟩⟩
    · cases depth with
      | zero =>
        -- the bracket that is looked for, which no text before it can have closed
        rw [cutClose_closer]
        constructor
        · intro h
          obtain ⟨rfl, rfl⟩ : [] = u ∧ text = v := by simpa using h
          exact ⟨rfl, rfl, closesFrom_nil.2 rfl⟩
        · rintro ⟨he, -, hcloses⟩
          rcases List.cons_eq_append_iff.1 he with ⟨rfl, hb⟩ | ⟨u', rfl, -⟩
          · rw [(List.cons.inj hb).2]
          · rw [structural_closer, closesFrom_closer] at hcloses
            obtain ⟨_, hdepth, -⟩ := hcloses
            cases hdepth
      | succ d =>
        rw [cutClose_closer_succ, passed_singleton_eq_some]
        constructor
        · rintro ⟨u', rfl, hcut⟩
          obtain ⟨rfl, hrun, hcloses⟩ := ih.1 hcut
          refine ⟨rfl, (run_closer kind u').trans hrun, ?_⟩
          rw [structural_closer, closesFrom_closer]
          exact ⟨d, rfl, hcloses⟩
        · rintro ⟨he, hrun, hcloses⟩
          rcases List.cons_eq_append_iff.1 he with ⟨rfl, -⟩ | ⟨u', rfl, rfl⟩
          · cases closesFrom_nil.1 hcloses
          · rw [structural_closer, closesFrom_closer] at hcloses
            obtain ⟨_, hdepth, hcloses⟩ := hcloses
            obtain rfl := Nat.succ.inj hdepth
            exact ⟨u', rfl, ih.2 ⟨rfl, (run_closer kind u').symm.trans hrun, hcloses⟩⟩
    · have hcut : q.isStructural c = false ∨ (c ≠ kind.opener ∧ c ≠ kind.closer) := by
        rwa [← Bool.not_eq_true, ← imp_iff_not_or]
      rw [cutClose_skip text hcut, passed_singleton_eq_some]
      constructor
      · rintro ⟨u', rfl, hcut⟩
        obtain ⟨rfl, hrun, hcloses⟩ := ih.1 hcut
        exact ⟨rfl, hrun, (closesFrom_skip hskip).2 hcloses⟩
      · rintro ⟨he, hrun, hcloses⟩
        obtain ⟨u', rfl, rfl⟩ := exists_cons_of_skip hskip (.inr rfl) he hrun
        exact ⟨u', rfl, ih.2 ⟨rfl, hrun, (closesFrom_skip hskip).1 hcloses⟩⟩

/-! ## Spans -/

/-- A cut of a text at its first bracket of a kind and at the bracket that closes it. -/
structure Span.Matched (kind : Bracket) (id : List Char) (b : Span) : Prop where
  text : id = b.before ++ kind.opener :: (b.inner ++ kind.closer :: b.after)
  outside : Quoting.plain.run b.before = .plain
  first : Unbracketed kind (Quoting.plain.structural b.before)
  closed : Quoting.plain.run b.inner = .plain
  balanced : Balanced kind (Quoting.plain.structural b.inner)

theorem firstSpan_eq_none_iff {id : List Char} :
    firstSpan kind id = .ok none ↔ Unbracketed kind (Quoting.plain.structural id) := by
  rw [← cutOpen_eq_none_iff, firstSpan]
  rcases cutOpen kind .plain id with _ | _ | ⟨before, rest⟩
  · simp
  · simp
  · simp only
    cases cutClose kind 0 .plain rest <;> simp

/-- A span is found exactly where its brackets match. -/
theorem firstSpan_eq_some_iff {id : List Char} {b : Span} :
    firstSpan kind id = .ok (some b) ↔ b.Matched kind id := by
  constructor
  · intro h
    unfold firstSpan at h
    split at h
    · cases h
    · cases h
    · next before rest hopen =>
      split at h
      · cases h
      · next inner after hclose =>
        obtain rfl := Option.some.inj (Except.ok.inj h)
        obtain ⟨rfl, houtside, hfirst⟩ := cutOpen_eq_some_iff.1 hopen
        obtain ⟨rfl, hclosed, hbalanced⟩ := cutClose_eq_some_iff.1 hclose
        exact ⟨rfl, houtside, hfirst, hclosed, balanced_iff.2 hbalanced⟩
  · intro h
    have hopen := cutOpen_eq_some_iff.2 ⟨h.text, h.outside, h.first⟩
    have hclose : cutClose kind 0 .plain (b.inner ++ kind.closer :: b.after) =
        some (b.inner, b.after) :=
      cutClose_eq_some_iff.2 ⟨rfl, h.closed, balanced_iff.1 h.balanced⟩
    rw [firstSpan, hopen]
    simp only [hclose]

/-! ## Spans of nested texts -/

section Nested
variable {before inner after other : List Char}

theorem Nested.balanced (h : Nested [] text) : Quoting.plain.run text = .plain ∧
    ∀ kind, Balanced kind (Quoting.plain.structural text) := by
  have hcut (kind : Bracket) : cutClose kind 0 .plain (text ++ [kind.closer]) = some (text, []) := by
    rw [cutClose_nested h, cutClose_closer]
    simp [passed]
  have hclosed (kind : Bracket) := (cutClose_eq_some_iff.1 (hcut kind)).2
  exact ⟨(hclosed .round).1, fun kind => balanced_iff.2 (hclosed kind).2⟩

theorem unbracketed_of_plain (h : ∀ c ∈ text, IsPlain c) :
    Unbracketed kind (Quoting.plain.structural text) := by
  rw [unbracketed_structural_iff]
  rintro u c v rfl -
  have hc : IsPlain c := h c (by simp)
  simpa using ⟨hc.ne_opener kind, hc.ne_closer kind⟩

/-- What comes before the first span does not depend on what the span contains. -/
theorem firstSpan_before {id : List Char}
    (h : firstSpan kind id = .ok (some ⟨before, inner, after⟩)) (hn : Nested [] other)
    (rest : List Char) :
    firstSpan kind (before ++ kind.opener :: (other ++ kind.closer :: rest)) =
      .ok (some ⟨before, other, rest⟩) := by
  obtain ⟨-, houtside, hfirst, -, -⟩ := firstSpan_eq_some_iff.1 h
  exact firstSpan_eq_some_iff.2 ⟨rfl, houtside, hfirst, hn.balanced.1, hn.balanced.2 kind⟩

theorem firstSpan_bracket (hb : ∀ c ∈ before, IsPlain c) (hi : Nested [] inner)
    (rest : List Char) :
    firstSpan kind (before ++ kind.opener :: (inner ++ kind.closer :: rest)) =
      .ok (some ⟨before, inner, rest⟩) := by
  have hbefore : Nested [] before := .of_plain fun c hc => ⟨hb c hc, by simp⟩
  exact firstSpan_eq_some_iff.2
    ⟨rfl, hbefore.balanced.1, unbracketed_of_plain hb, hi.balanced.1, hi.balanced.2 kind⟩

theorem firstSpan_none (ht : ∀ c ∈ text, IsPlain c) : firstSpan kind text = .ok none :=
  firstSpan_eq_none_iff.2 (unbracketed_of_plain ht)

/-- A text that begins with a bracket is cut at the one that closes it. -/
theorem requireSpan_lead (kind : Bracket) (hi : Nested [] inner) (rest : List Char) :
    requireSpan kind (kind.opener :: (inner ++ kind.closer :: rest)) = .ok ⟨[], inner, rest⟩ := by
  have hnone : ∀ c ∈ ([] : List Char), IsPlain c := by simp
  rw [requireSpan, ← List.nil_append (kind.opener :: _), firstSpan_bracket hnone hi]

end Nested

end TypeIdentity.Scan
