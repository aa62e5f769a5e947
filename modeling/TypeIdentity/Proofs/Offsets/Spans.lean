import TypeIdentity.Proofs.Offsets.Walks
import TypeIdentity.Proofs.Scan.Words

/-! # Spans found by offsets

The first bracketed span as it is found in the bytes of a text: the offset of the first bracket, the
number of brackets that are open, and whether the place is inside quotes.
-/
namespace TypeIdentity.Offsets
open Text Scan

/-- The inside of a span, and the byte offsets of its brackets. -/
structure OffsetSpan where
  inner : List Char
  start : Nat
  stop : Nat
  deriving DecidableEq, Repr

def OffsetSpan.of (b : Span) : OffsetSpan := ⟨b.inner, b.openOffset, b.closeOffset⟩

structure SpanScan where
  start : Option Nat
  depth : Nat
  quoted : Bool

namespace SpanScan

def step (kind : Bracket) (id : List Char) : ScanStep SpanScan (Option OffsetSpan) :=
  fun s i c =>
    if c = '\\' then return (s, true)
    else if c = '"' then return ({ s with quoted := !s.quoted }, false)
    else if s.quoted then return (s, false)
    else if c = kind.opener then do
      let start := if s.depth = 0 then some i else s.start
      return (⟨start, ← add s.depth 1, s.quoted⟩, false)
    else if c = kind.closer then
      match s.start.filter fun _ => 0 < s.depth with
      | none => answer (.error (.malformed (String.ofList id) (.unbalanced kind.closer)))
      | some start => do
        let depth ← sub s.depth 1
        if depth = 0 then
          let inner ← slice id (← add start 1) i
          answer (.ok (some ⟨inner, start, i⟩))
        else return (⟨s.start, depth, s.quoted⟩, false)
    else return (s, false)

def finish (kind : Bracket) (id : List Char) (s : SpanScan) :
    Checked (Except Error) (Option OffsetSpan) :=
  match s.start with
  | some _ => refuse (.malformed (String.ofList id) (.unbalanced kind.opener))
  | none => return none

end SpanScan

def firstSpan (kind : Bracket) (id : List Char) : Checked (Except Error) (Option OffsetSpan) :=
  scan (SpanScan.step kind id) ⟨none, 0, false⟩ (SpanScan.finish kind id) id

def requireSpan (kind : Bracket) (id : List Char) : Checked (Except Error) OffsetSpan := do
  match ← firstSpan kind id with
  | none => refuse (.malformed (String.ofList id) (.expected kind.opener))
  | some b => return b

/-! ## What is found -/

variable {kind : Bracket} {id : List Char}

theorem ascii_spanStep : Ascii (SpanScan.step kind id) := by
  intro s i c hc
  have hne (d : Char) (hd : d.toNat < 0x80) : c ≠ d := ne_of_ascii hc hd
  have hopener : c ≠ kind.opener := hne _ (by cases kind <;> decide)
  have hcloser : c ≠ kind.closer := hne _ (by cases kind <;> decide)
  rw [SpanScan.step, if_neg (hne _ (by decide)), if_neg (hne _ (by decide)), if_neg hopener,
    if_neg hcloser]
  split <;> rfl

/-! What a bracket of the kind does, depending on how many are open. -/

section
variable (kind id) (i start depth : Nat)

theorem step_opener_first : SpanScan.step kind id ⟨none, 0, false⟩ i kind.opener =
    pure (⟨some i, 1, false⟩, false) := by
  cases kind <;> rfl

theorem step_opener_inside (h : depth + 1 + 1 < wordLimit) :
    SpanScan.step kind id ⟨some start, depth + 1, false⟩ i kind.opener =
      pure (⟨some start, depth + 1 + 1, false⟩, false) := by
  have hstep : SpanScan.step kind id ⟨some start, depth + 1, false⟩ i kind.opener =
      add (depth + 1) 1 >>= fun d => pure (⟨some start, d, false⟩, false) := by
    cases kind <;> rfl
  rw [hstep, add_eq h, pure_bind]

theorem step_closer_none : SpanScan.step kind id ⟨none, 0, false⟩ i kind.closer =
    answer (.error (.malformed (String.ofList id) (.unbalanced kind.closer))) := by
  cases kind <;> rfl

theorem step_closer_last : SpanScan.step kind id ⟨some start, 1, false⟩ i kind.closer =
    add start 1 >>= fun k => slice id k i >>= fun inner =>
      answer (.ok (some ⟨inner, start, i⟩)) := by
  cases kind <;> rfl

theorem step_closer_inside : SpanScan.step kind id ⟨some start, depth + 2, false⟩ i kind.closer =
    pure (⟨some start, depth + 1, false⟩, false) := by
  cases kind <;> rfl

end

/-- Whatever is not a bracket of the kind leaves the brackets as they are. -/
theorem walkText_pass {q : Quoting} {c : Char}
    (h : q.isStructural c = true → c ≠ kind.opener ∧ c ≠ kind.closer) (start : Option Nat)
    (depth i : Nat) (rest : List Char) :
    walkText (SpanScan.step kind id) ⟨start, depth, q.quoted⟩ q.escaped i (c :: rest) =
      walkText (SpanScan.step kind id) ⟨start, depth, (q.step c).quoted⟩ (q.step c).escaped
        (i + c.utf8Size) rest := by
  obtain ⟨quoted, escaped⟩ := q
  rw [walkText, Quoting.step]
  cases escaped with
  | true => rfl
  | false =>
    simp only [Bool.false_eq_true, if_false]
    rw [SpanScan.step]
    by_cases hback : c = '\\'
    · rw [if_pos hback, if_pos hback, pure_bind]
    rw [if_neg hback, if_neg hback]
    by_cases hquote : c = '"'
    · rw [if_pos hquote, if_pos hquote, pure_bind]
    rw [if_neg hquote, if_neg hquote]
    cases quoted with
    | true => rfl
    | false =>
      have hstructural : Quoting.plain.isStructural c = true := by
        simp [Quoting.isStructural, Quoting.plain, hback, hquote]
      obtain ⟨hopener, hcloser⟩ := h hstructural
      simp only [Bool.false_eq_true, if_false]
      rw [if_neg hopener, if_neg hcloser, pure_bind]

/-- Before the first bracket. -/
theorem walkText_cutOpen {q : Quoting} (before rest : List Char) :
    walkText (SpanScan.step kind id) ⟨none, 0, q.quoted⟩ q.escaped (utf8Size before) rest =
      match cutOpen kind q rest with
      | .error _ => answer (.error (.malformed (String.ofList id) (.unbalanced kind.closer)))
      | .ok none => pure ⟨none, 0, (q.run rest).quoted⟩
      | .ok (some (u, v)) =>
        walkText (SpanScan.step kind id) ⟨some (utf8Size (before ++ u)), 1, false⟩ false
          (utf8Size (before ++ u ++ [kind.opener])) v := by
  induction rest generalizing q before with
  | nil => rfl
  | cons c rest ih =>
    by_cases hopen : (q.isStructural c && c == kind.opener) = true
    · obtain ⟨hstructural, hopener⟩ := Bool.and_eq_true_iff.1 hopen
      obtain rfl := eq_plain_of_isStructural hstructural
      obtain rfl : c = kind.opener := by simpa using hopener
      rw [cutOpen, if_pos hopen, walkText]
      simp only [Quoting.plain, Bool.false_eq_true, if_false, step_opener_first, pure_bind]
      simp [utf8Size_append, utf8Size_cons, utf8Size_nil]
    by_cases hclose : (q.isStructural c && c == kind.closer) = true
    · obtain ⟨hstructural, hcloser⟩ := Bool.and_eq_true_iff.1 hclose
      obtain rfl := eq_plain_of_isStructural hstructural
      obtain rfl : c = kind.closer := by simpa using hcloser
      rw [cutOpen, if_neg hopen, if_pos hclose, walkText]
      simp only [Quoting.plain, Bool.false_eq_true, if_false, step_closer_none]
      rfl
    · have hpass : q.isStructural c = true → c ≠ kind.opener ∧ c ≠ kind.closer := by
        intro hs
        simp only [hs, Bool.true_and, beq_iff_eq] at hopen hclose
        exact ⟨hopen, hclose⟩
      have hsize : utf8Size before + c.utf8Size = utf8Size (before ++ [c]) := by
        simp [utf8Size_append, utf8Size_cons, utf8Size_nil]
      rw [walkText_pass hpass, hsize, ih, cutOpen, if_neg hopen, if_neg hclose]
      cases cutOpen kind (q.step c) rest with
      | error => rfl
      | ok cut =>
        cases cut with
        | none => rfl
        | some p => simp [Functor.map, Except.map, utf8Size_append, utf8Size_cons]

/-- After the first bracket, which the others are counted from. -/
theorem walkText_cutClose {q : Quoting} {before inner rest : List Char} {depth : Nat}
    (hid : id = before ++ kind.opener :: (inner ++ rest)) (hdepth : depth ≤ utf8Size inner)
    (hlimit : utf8Size id + 1 < wordLimit) :
    ∃ s : SpanScan, s.start.isSome = true ∧
    walkText (SpanScan.step kind id) ⟨some (utf8Size before), depth + 1, q.quoted⟩ q.escaped
        (utf8Size (before ++ kind.opener :: inner)) rest =
      match cutClose kind depth q rest with
      | none => pure s
      | some (u, _) => answer (.ok (some ⟨inner ++ u, utf8Size before,
          utf8Size (before ++ kind.opener :: (inner ++ u))⟩)) := by
  induction rest generalizing q inner depth with
  | nil => exact ⟨⟨some (utf8Size before), depth + 1, q.quoted⟩, rfl, rfl⟩
  | cons c rest ih =>
    have hmove : id = before ++ kind.opener :: (inner ++ [c] ++ rest) := by rw [hid]; simp
    have hsize : utf8Size (before ++ kind.opener :: inner) + c.utf8Size =
        utf8Size (before ++ kind.opener :: (inner ++ [c])) := by
      simp [utf8Size_append, utf8Size_cons, utf8Size_nil, Nat.add_assoc]
    have hinner : utf8Size (inner ++ [c]) = utf8Size inner + c.utf8Size := by
      simp [utf8Size_append, utf8Size_cons, utf8Size_nil]
    have hpos := c.utf8Size_pos
    have hbound : utf8Size before + 1 + utf8Size inner + c.utf8Size + 1 < wordLimit := by
      have hopener : kind.opener.utf8Size = 1 := by cases kind <;> rfl
      rw [hmove] at hlimit
      simp only [utf8Size_append, utf8Size_cons, utf8Size_nil, hopener] at hlimit
      omega
    -- what is found behind the character is found behind what comes before it
    have hafter (q' : Quoting) (d : Nat) (hd : d ≤ utf8Size (inner ++ [c])) := by
      have hih := @ih q' (inner ++ [c]) d hmove hd
      rw [← hsize] at hih
      exact hih
    by_cases hskip : q.isStructural c = true → c ≠ kind.opener ∧ c ≠ kind.closer
    · obtain ⟨s, hs, hwalk⟩ := hafter (q.step c) depth (by omega)
      refine ⟨s, hs, ?_⟩
      have hcut : q.isStructural c = false ∨ (c ≠ kind.opener ∧ c ≠ kind.closer) := by
        rw [← Bool.not_eq_true, ← imp_iff_not_or]
        exact hskip
      rw [walkText_pass hskip, hwalk, cutClose_skip rest hcut]
      cases cutClose kind depth (q.step c) rest with
      | none => rfl
      | some p => simp [passed]
    obtain ⟨hstructural, hbracket⟩ := Classical.not_imp.1 hskip
    obtain rfl := eq_plain_of_isStructural hstructural
    -- outside of quotes a bracket of the kind changes the depth
    have hnext (d : Nat) (hd : d ≤ utf8Size (inner ++ [c])) := hafter .plain d hd
    simp only [Quoting.plain] at hnext ⊢
    by_cases hopen : c = kind.opener
    · subst hopen
      obtain ⟨s, hs, hwalk⟩ := hnext (depth + 1) (by omega)
      refine ⟨s, hs, ?_⟩
      have hcut := @cutClose_opener kind depth rest
      rw [Quoting.plain] at hcut
      rw [walkText, step_opener_inside kind id _ _ depth (by omega), hcut, pure_bind]
      simp only [Bool.false_eq_true, if_false, hwalk]
      cases cutClose kind (depth + 1) ⟨false, false⟩ rest with
      | none => rfl
      | some p => simp [passed]
    · obtain rfl : c = kind.closer := by
        by_contra hclose
        exact hbracket ⟨hopen, hclose⟩
      rw [walkText]
      simp only [Bool.false_eq_true, if_false]
      cases depth with
      | zero =>
        have hcut := @cutClose_closer kind rest
        rw [Quoting.plain] at hcut
        have hone : utf8Size (before ++ [kind.opener]) = utf8Size before + 1 := by
          cases kind <;> simp [utf8Size_append, utf8Size_cons, utf8Size_nil, Bracket.opener] <;> rfl
        have hslice : slice id (utf8Size before + 1) (utf8Size (before ++ kind.opener :: inner)) =
            (pure inner : Checked (Except (Except Error (Option OffsetSpan))) _) := by
          have hparts : id = before ++ [kind.opener] ++ (inner ++ kind.closer :: rest) := by
            rw [hid]
            simp
          refine slice_eq hparts hone.symm ?_
          rw [← utf8Size_append, List.append_assoc]
          rfl
        refine ⟨⟨some 0, 0, false⟩, rfl, ?_⟩
        rw [hcut, step_closer_last, add_eq (by omega), pure_bind, hslice, pure_bind]
        simp only [List.append_nil]
        rfl
      | succ d =>
        have hcut := @cutClose_closer_succ kind d rest
        rw [Quoting.plain] at hcut
        obtain ⟨s, hs, hwalk⟩ := hnext d (by omega)
        refine ⟨s, hs, ?_⟩
        rw [hcut, step_closer_inside, pure_bind]
        simp only [hwalk]
        cases cutClose kind d ⟨false, false⟩ rest with
        | none => rfl
        | some p => simp [passed]

/-- Scanning bytes finds the span that scanning characters finds, and runs into no fault. -/
theorem firstSpan_eq (hlimit : utf8Size id < sizeLimit) :
    firstSpan kind id = ExceptT.lift (Option.map OffsetSpan.of <$> Scan.firstSpan kind id) := by
  have hword : utf8Size id + 1 < wordLimit := wordLimit_of_sizeLimit hlimit
  have hopen := @walkText_cutOpen kind id .plain [] id
  rw [firstSpan, scan_eq ascii_spanStep _ _ hword, Scan.firstSpan]
  simp only [Quoting.plain, utf8Size_nil, List.nil_append] at hopen ⊢
  rw [hopen]
  cases hcut : cutOpen kind ⟨false, false⟩ id with
  | error => rfl
  | ok cut =>
    cases cut with
    | none => rfl
    | some p =>
      obtain ⟨u, v⟩ := p
      have hid : id = u ++ kind.opener :: ([] ++ v) := cutOpen_eq_append hcut
      obtain ⟨s, hs, hclose⟩ :=
        @walkText_cutClose kind id .plain u [] v 0 hid (Nat.zero_le _) hword
      simp only [Quoting.plain, List.nil_append] at hclose ⊢
      rw [hclose]
      cases cutClose kind 0 ⟨false, false⟩ v with
      | none =>
        obtain ⟨start, hstart⟩ := Option.isSome_iff_exists.1 hs
        rw [concluded_pure, SpanScan.finish, hstart]
        rfl
      | some p =>
        have hone : kind.opener.utf8Size = 1 := by cases kind <;> rfl
        have hoffset : utf8Size (u ++ kind.opener :: p.1) = utf8Size u + 1 + utf8Size p.1 := by
          rw [utf8Size_append, utf8Size_cons, hone, Nat.add_assoc]
        simp only [hoffset, concluded_answer]
        rfl

theorem requireSpan_eq (hlimit : utf8Size id < sizeLimit) :
    requireSpan kind id = ExceptT.lift (OffsetSpan.of <$> Scan.requireSpan kind id) := by
  rw [requireSpan, firstSpan_eq hlimit, Scan.requireSpan]
  cases Scan.firstSpan kind id with
  | error => rfl
  | ok found => cases found <;> rfl

end TypeIdentity.Offsets
