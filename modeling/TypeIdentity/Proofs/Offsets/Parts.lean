import TypeIdentity.Proofs.Offsets.Walks
import TypeIdentity.Proofs.Scan.Words

/-! # Parts cut by offsets

The parts of a text as they are cut out of its bytes: the offset at which the current part begins,
and a counter for the open brackets of each kind.  The counters may become negative, and are looked
at after each change.
-/
namespace TypeIdentity.Offsets
open Text Scan

/-- A counter for each kind of brackets. -/
structure Counts where
  round : Int
  square : Int
  curly : Int
  deriving DecidableEq, Repr

namespace Counts

def top : Counts := ⟨0, 0, 0⟩

def of (d : Depths) : Counts := ⟨d.round, d.square, d.curly⟩

theorem of_eq_top {d : Depths} : of d = top ↔ d = .top := by
  obtain ⟨round, square, curly⟩ := d
  simp [of, top, Depths.top]

end Counts

structure PartScan where
  parts : List (List Char)
  counts : Counts
  quoted : Bool
  start : Nat

namespace PartScan

/-- Changes a counter for a bracket. -/
def shift (id : List Char) (c : Char) (count change : Int) :
    Checked (Except (Except Error (List (List Char)))) Int := do
  let count ← addCount count change
  if count < 0 then answer (.error (.malformed (String.ofList id) (.unbalanced c)))
  else return count

/-- Counts a bracket; other characters count for nothing. -/
def count (id : List Char) (n : Counts) (c : Char) :
    Checked (Except (Except Error (List (List Char)))) Counts := do
  if c = '(' then return { n with round := ← shift id c n.round 1 }
  else if c = '[' then return { n with square := ← shift id c n.square 1 }
  else if c = '\x7b' then return { n with curly := ← shift id c n.curly 1 }
  else if c = ')' then return { n with round := ← shift id c n.round (-1) }
  else if c = ']' then return { n with square := ← shift id c n.square (-1) }
  else if c = '\x7d' then return { n with curly := ← shift id c n.curly (-1) }
  else return n

def step (sep : Separator) (id : List Char) : ScanStep PartScan (List (List Char)) := fun s i c => do
  if c = '\\' then return (s, true)
  else if c = '"' then return ({ s with quoted := !s.quoted }, false)
  else if s.quoted then return (s, false)
  else
    let counts ← count id s.counts c
    if c = sep.char ∧ counts = .top then
      let part ← slice id s.start i
      match closePart sep part with
      | .ok closed => return (⟨s.parts ++ closed, counts, s.quoted, ← add i 1⟩, false)
      | .error flaw => answer (.error (.malformed (String.ofList id) flaw))
    else return ({ s with counts }, false)

def finish (sep : Separator) (id : List Char) (s : PartScan) :
    Checked (Except Error) (List (List Char)) :=
  let malformed (flaw : Flaw) : Checked (Except Error) (List (List Char)) :=
    refuse (.malformed (String.ofList id) flaw)
  if s.quoted then malformed .unterminatedQuote
  else if s.counts ≠ .top then malformed .unclosedBracket
  else do
    let part ← sliceFrom id (min s.start (utf8Size id))
    match closePart sep part with
    | .ok closed => return s.parts ++ closed
    | .error flaw => malformed flaw

end PartScan

def splitParts (sep : Separator) (id : List Char) : Checked (Except Error) (List (List Char)) :=
  if isBlankText id then return []
  else scan (PartScan.step sep id) ⟨[], .top, false, 0⟩ (PartScan.finish sep id) id

/-! ## What is cut -/

variable {sep : Separator} {id : List Char}

theorem ascii_partStep : Ascii (PartScan.step sep id) := by
  intro s i c hc
  have hne (d : Char) (hd : d.toNat < 0x80) : c ≠ d := ne_of_ascii hc hd
  have hsep : ¬(c = sep.char ∧ s.counts = .top) := fun h => hne _ (by cases sep <;> decide) h.1
  have hcount : PartScan.count id s.counts c = pure s.counts := by
    rw [PartScan.count, if_neg (hne _ (by decide)), if_neg (hne _ (by decide)),
      if_neg (hne _ (by decide)), if_neg (hne _ (by decide)), if_neg (hne _ (by decide)),
      if_neg (hne _ (by decide))]
  rw [PartScan.step, if_neg (hne _ (by decide)), if_neg (hne _ (by decide)), hcount, pure_bind,
    if_neg hsep]
  split <;> rfl

def openBrackets (d : Depths) : Nat := d.round + d.square + d.curly

theorem openBrackets_step {d e : Depths} {c : Char} (h : d.step c = some e) :
    openBrackets e ≤ openBrackets d + 1 := by
  grind [Depths.step, openBrackets]

theorem shift_eq (c : Char) {n : Nat} (hn : (n : Int) + 1 < counterLimit) :
    PartScan.shift id c n 1 = pure (↑(n + 1)) := by
  rw [PartScan.shift, addCount_eq ⟨by unfold counterLimit; omega, hn⟩, pure_bind,
    if_neg (by omega)]
  rfl

theorem shift_back (c : Char) {n : Nat} (hn : (n : Int) < counterLimit) :
    PartScan.shift id c n (-1) =
      if n = 0 then answer (.error (.malformed (String.ofList id) (.unbalanced c)))
      else pure (↑(n - 1)) := by
  have hrange : -counterLimit ≤ (n : Int) + -1 ∧ (n : Int) + -1 < counterLimit := by
    unfold counterLimit at hn ⊢
    omega
  rw [PartScan.shift, addCount_eq hrange, pure_bind]
  by_cases h : n = 0
  · rw [if_pos h, if_pos (by omega)]
  · rw [if_neg h, if_neg (by omega)]
    congr 1
    omega

/-- Counting agrees with the depths as long as these are small. -/
theorem count_eq {d : Depths} (hd : (openBrackets d : Int) + 1 < counterLimit) (c : Char) :
    PartScan.count id (.of d) c =
      match d.step c with
      | none => answer (.error (.malformed (String.ofList id) (.unbalanced c)))
      | some e => pure (.of e) := by
  obtain ⟨round, square, curly⟩ := d
  simp only [openBrackets] at hd
  have hup (n : Nat) (hn : n ≤ round + square + curly) :
      PartScan.shift id c n 1 = pure (↑(n + 1)) := shift_eq c (by omega)
  have hdown (n : Nat) (hn : n ≤ round + square + curly) := @shift_back id c n (by omega)
  unfold PartScan.count Depths.step
  split
  · simp only [Counts.of, hup round (by omega), pure_bind]
  split
  · simp only [Counts.of, hup square (by omega), pure_bind]
  split
  · simp only [Counts.of, hup curly (by omega), pure_bind]
  split
  · simp only [Counts.of, hdown round (by omega)]
    split <;> rfl
  split
  · simp only [Counts.of, hdown square (by omega)]
    split <;> rfl
  split
  · simp only [Counts.of, hdown curly (by omega)]
    split <;> rfl
  · rfl

/-- Whatever is quoted or escaped leaves the parts as they are. -/
theorem partWalk_pass {q : Quoting} {c : Char} (h : q.isStructural c = false)
    (parts : List (List Char)) (counts : Counts) (start i : Nat) (rest : List Char) :
    walkText (PartScan.step sep id) ⟨parts, counts, q.quoted, start⟩ q.escaped i (c :: rest) =
      walkText (PartScan.step sep id) ⟨parts, counts, (q.step c).quoted, start⟩ (q.step c).escaped
        (i + c.utf8Size) rest := by
  obtain ⟨quoted, escaped⟩ := q
  rw [walkText, Quoting.step]
  cases escaped with
  | true => rfl
  | false =>
    simp only [Bool.false_eq_true, if_false]
    rw [PartScan.step]
    by_cases hback : c = '\\'
    · rw [if_pos hback, if_pos hback, pure_bind]
    rw [if_neg hback, if_neg hback]
    by_cases hquote : c = '"'
    · rw [if_pos hquote, if_pos hquote, pure_bind]
    rw [if_neg hquote, if_neg hquote]
    cases quoted with
    | true => rfl
    | false => simp [Quoting.isStructural, hback, hquote] at h

/-- What is cut behind a place, when the parts before it are known. -/
theorem walkText_splitFrom {q : Quoting} {d : Depths} {before part rest : List Char}
    {parts : List (List Char)} (hid : id = before ++ (part.reverse ++ rest))
    (hdepth : openBrackets d ≤ utf8Size before + utf8Size part)
    (hlimit : (utf8Size id : Int) < counterLimit) :
    concluded (PartScan.finish sep id) (walkText (PartScan.step sep id)
        ⟨parts, .of d, q.quoted, utf8Size before⟩ q.escaped (utf8Size before + utf8Size part) rest) =
      match splitFrom sep q d part rest with
      | .ok more => ExceptT.lift (.ok (parts ++ more))
      | .error flaw => ExceptT.lift (.error (.malformed (String.ofList id) flaw)) := by
  induction rest generalizing q d before part parts with
  | nil =>
    have hslice : sliceFrom id (min (utf8Size before) (utf8Size id)) =
        (pure part.reverse : Checked (Except Error) _) := by
      rw [List.append_nil] at hid
      refine sliceFrom_eq hid (Nat.min_eq_left ?_)
      rw [hid, utf8Size_append]
      omega
    rw [walkText, concluded_pure, PartScan.finish, splitFrom]
    simp only [ne_eq, Counts.of_eq_top, hslice, pure_bind]
    split
    · rfl
    split
    · rfl
    · cases closePart sep part.reverse <;> rfl
  | cons c rest ih =>
    have hkeep : id = before ++ ((c :: part).reverse ++ rest) := by rw [hid]; simp
    have hsize : utf8Size before + utf8Size part + c.utf8Size =
        utf8Size before + utf8Size (c :: part) := by
      rw [utf8Size_cons]
      omega
    have hpos := c.utf8Size_pos
    by_cases hs : q.isStructural c = true
    · obtain rfl := eq_plain_of_isStructural hs
      have hmarks : c ≠ '\\' ∧ c ≠ '"' := by
        simpa [Quoting.isStructural, Quoting.plain, and_comm] using hs
      have hbound : utf8Size before + utf8Size part < utf8Size id := by
        rw [hid, utf8Size_append, utf8Size_append, utf8Size_reverse, utf8Size_cons]
        omega
      have hcount := @count_eq id d (by omega) c
      rw [walkText, splitFrom, if_pos hs]
      simp only [Quoting.plain, Bool.false_eq_true, if_false]
      rw [PartScan.step, if_neg hmarks.1, if_neg hmarks.2]
      simp only [Bool.false_eq_true, if_false, hcount]
      cases hstep : d.step c with
      | none => rfl
      | some e =>
        have he := openBrackets_step hstep
        simp only [pure_bind, Counts.of_eq_top]
        by_cases hsep : c = sep.char ∧ e = .top
        · obtain ⟨rfl, rfl⟩ := hsep
          have hone : sep.char.utf8Size = 1 := by cases sep <;> rfl
          have hslice : slice id (utf8Size before) (utf8Size before + utf8Size part) =
              (pure part.reverse : Checked (Except (Except Error (List (List Char)))) _) := by
            refine slice_eq hid rfl ?_
            rw [utf8Size_reverse]
          rw [if_pos ⟨rfl, rfl⟩, if_pos ⟨rfl, rfl⟩, hslice, pure_bind]
          cases hclose : closePart sep part.reverse with
          | error flaw => rfl
          | ok closed =>
            have hnext : id =
                before ++ part.reverse ++ [sep.char] ++ (([] : List Char).reverse ++ rest) := by
              rw [hid]
              simp
            have hoffset : utf8Size (before ++ part.reverse ++ [sep.char]) =
                utf8Size before + utf8Size part + 1 := by
              simp [utf8Size_append, utf8Size_cons, utf8Size_nil, utf8Size_reverse, hone, Nat.add_assoc]
            have hih := @ih .plain .top _ [] (parts ++ closed) hnext (Nat.zero_le _)
            rw [utf8Size_nil, Nat.add_zero, hoffset] at hih
            have hword : utf8Size before + utf8Size part + 1 < wordLimit := by
              unfold counterLimit at hlimit
              unfold wordLimit
              omega
            simp only [Quoting.plain] at hih
            simp only [add_eq hword, pure_bind, hone]
            rw [hih]
            cases splitFrom sep ⟨false, false⟩ .top [] rest with
            | error flaw => rfl
            | ok more => simp [bind, Except.bind, pure, Except.pure]
        · rw [if_neg hsep, if_neg hsep, pure_bind]
          simp only [hsize]
          exact @ih .plain e before (c :: part) parts hkeep (by rw [utf8Size_cons]; omega)
    · rw [partWalk_pass (by simpa using hs), hsize, splitFrom, if_neg hs]
      exact ih hkeep (by rw [utf8Size_cons]; omega)

/-- Scanning bytes cuts the parts that scanning characters cuts, and runs into no fault. -/
theorem splitParts_eq (hlimit : utf8Size id < sizeLimit) :
    splitParts sep id = ExceptT.lift (Scan.splitParts sep id) := by
  have hcounter : (utf8Size id : Int) < counterLimit := by
    unfold sizeLimit at hlimit
    unfold counterLimit
    omega
  have hword : utf8Size id + 1 < wordLimit := wordLimit_of_sizeLimit hlimit
  rw [splitParts, Scan.splitParts]
  split
  · rfl
  · have hsplit := @walkText_splitFrom sep id .plain .top [] [] id [] rfl (Nat.zero_le _) hcounter
    rw [scan_eq ascii_partStep _ _ hword]
    simp only [Quoting.plain, utf8Size_nil, Nat.add_zero, List.nil_append] at hsplit ⊢
    exact hsplit.trans (by cases splitFrom sep ⟨false, false⟩ .top [] id <;> rfl)

end TypeIdentity.Offsets
