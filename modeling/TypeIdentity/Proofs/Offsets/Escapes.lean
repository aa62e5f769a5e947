import TypeIdentity.Proofs.Offsets.Slices
import TypeIdentity.Text.Quoted

/-! # Quoted strings read by offsets

The value of the digits of an escape is built up in a word, one digit after the other, and the marks
around a raw string are cut off by their offsets.
-/
namespace TypeIdentity.Offsets
open Text

/-- Reads `n` digits onto `value`; `count` is how many there should have been. -/
def digitsOnto (count radix : Nat) : Nat → Nat → List Char → Checked (Except QuoteError) Nat
  | 0, value, _ => return value
  | _ + 1, _, [] => refuse (.missingDigits count radix)
  | n + 1, value, c :: rest =>
    match digitValue? radix c with
    | none => refuse (.missingDigits count radix)
    | some d => do digitsOnto count radix n (← add (← mul value radix) d) rest

def takeDigits (count radix : Nat) (text : List Char) : Checked (Except QuoteError) Nat :=
  digitsOnto count radix count 0 text

/-- The bytes that an escape stands for, and how many characters after its letter belong to it. -/
def readEscape (letter : Char) (rest : List Char) :
    Checked (Except QuoteError) (List UInt8 × Nat) :=
  match letterEscape? letter with
  | some byte => return ([byte], 0)
  | none =>
    if letter = 'x' then do
      return ([(← takeDigits 2 16 rest).toUInt8], 2)
    else if '0' ≤ letter ∧ letter ≤ '7' then do
      let low ← takeDigits 2 8 rest
      let value ← add (← mul (← sub letter.toNat '0'.toNat) 64) low
      if value < 256 then return ([value.toUInt8], 2) else refuse (.octalTooLarge value)
    else if letter = 'u' ∨ letter = 'U' then do
      let width := if letter = 'u' then 4 else 8
      let value ← takeDigits width 16 rest
      if value.isValidChar then return (utf8Encode [Char.ofNat value], width)
      else refuse (.invalidCodePoint value)
    else refuse (.unknownEscape letter)

/-- The bytes that the inside of a quoted string stands for, from the given offset on. -/
def unquoteBytes (offset : Nat) : List Char → Checked (Except QuoteError) (List UInt8)
  | [] => return []
  | '"' :: _ => refuse (.bareQuote offset)
  | '\n' :: _ => refuse .newline
  | ['\\'] => refuse .trailingBackslash
  | '\\' :: letter :: rest => do
    let (bytes, width) ← readEscape letter rest
    let size := 1 + letter.utf8Size + utf8Size (rest.take width)
    return bytes ++ (← unquoteBytes (offset + size) (rest.drop width))
  | c :: rest => do return String.utf8EncodeChar c ++ (← unquoteBytes (offset + c.utf8Size) rest)
termination_by text => text.length
decreasing_by
  · simp; omega
  · simp

/-- The text for which a quoted or raw string stands. -/
def unquote (text : List Char) : Checked (Except QuoteError) (List Char) :=
  if 2 ≤ utf8Size text ∧ text.head? = some '\x60' ∧ text.getLast? = some '\x60' then do
    let raw ← slice text 1 (← sub (utf8Size text) 1)
    if '\x60' ∈ raw then refuse .backQuoteInside else return raw.filter (· ≠ '\r')
  else
    match inside? '"' text with
    | none => refuse (.notQuoted (String.ofList text))
    | some body => do
      match utf8Decode (← unquoteBytes 0 body) with
      | .ok cs => return cs
      | .error fault => refuse (.notUtf8 fault)

/-! ## What is read -/

theorem digitValue?_lt {radix d : Nat} {c : Char} (h : digitValue? radix c = some d) : d < radix := by
  rw [digitValue?] at h
  exact of_decide_eq_true (Option.filter_eq_some_iff.1 h).2

/-- One digit more makes a value less than `radix` times as large. -/
theorem digit_lt {radix value d : Nat} (hd : d < radix) :
    value * radix + d + 1 ≤ (value + 1) * radix := by
  rw [Nat.add_mul, Nat.one_mul]
  omega

/-- How many values `n` digits can have. -/
def valueCount (radix : Nat) : Nat → Nat
  | 0 => 1
  | n + 1 => radix * valueCount radix n

theorem valueCount_pos {radix : Nat} (hr : 0 < radix) (n : Nat) : 0 < valueCount radix n := by
  induction n with
  | zero => exact Nat.one_pos
  | succ n ih => exact Nat.mul_pos hr ih

theorem foldl_digits_lt {radix value : Nat} {text : List Char} {ds : List Nat}
    (h : text.mapM (digitValue? radix) = some ds) :
    ds.foldl (fun acc d => acc * radix + d) value < (value + 1) * valueCount radix ds.length := by
  induction text generalizing value ds with
  | nil =>
    obtain rfl : [] = ds := Option.some.inj h
    exact Nat.lt_of_lt_of_eq (Nat.lt_succ_self value) (Nat.mul_one _).symm
  | cons c rest ih =>
    rw [List.mapM_cons] at h
    obtain ⟨d, hd, h⟩ := Option.bind_eq_some_iff.1 h
    obtain ⟨ds', hds, h⟩ := Option.bind_eq_some_iff.1 h
    obtain rfl : d :: ds' = ds := Option.some.inj h
    rw [List.foldl_cons, List.length_cons, valueCount, ← Nat.mul_assoc]
    refine Nat.lt_of_lt_of_le (ih hds) ?_
    exact Nat.mul_le_mul_right _ (digit_lt (digitValue?_lt hd))

theorem readEscapeDigits_lt {count radix value : Nat} {text : List Char}
    (h : readEscapeDigits count radix text = .ok value) : value < valueCount radix count := by
  unfold readEscapeDigits at h
  split at h
  · cases h
  · next ds hds =>
    split at h <;> cases h
    next hlen =>
      have hlt := @foldl_digits_lt radix 0 _ _ hds
      rwa [Nat.zero_add, Nat.one_mul, hlen] at hlt

/-- The digits are read as long as all values with so many digits fit into a word. -/
theorem digitsOnto_eq {count radix n value : Nat} (h : (value + 1) * valueCount radix n ≤ wordLimit)
    (text : List Char) :
    digitsOnto count radix n value text =
      match (text.take n).mapM (digitValue? radix) with
      | none => refuse (.missingDigits count radix)
      | some ds =>
        if ds.length = n then return ds.foldl (fun acc d => acc * radix + d) value
        else refuse (.missingDigits count radix) := by
  induction n generalizing value text with
  | zero => rfl
  | succ n ih =>
    cases text with
    | nil => rfl
    | cons c rest =>
      rw [digitsOnto, List.take_succ_cons, List.mapM_cons]
      cases hc : digitValue? radix c with
      | none => rfl
      | some d =>
        have hd := digitValue?_lt hc
        have hnext : (value * radix + d + 1) * valueCount radix n ≤ wordLimit := by
          refine Nat.le_trans (Nat.mul_le_mul_right _ (digit_lt hd)) ?_
          rwa [Nat.mul_assoc]
        have hfits : value * radix + d < wordLimit := by
          have hpos := valueCount_pos (Nat.zero_lt_of_lt hd) n
          exact Nat.le_trans (Nat.le_mul_of_pos_right _ hpos) hnext
        simp only [mul_eq (Nat.lt_of_le_of_lt (Nat.le_add_right _ d) hfits), add_eq hfits, pure_bind]
        rw [ih hnext rest]
        cases (rest.take n).mapM (digitValue? radix) with
        | none => rfl
        | some ds => simp

theorem takeDigits_eq {count radix : Nat} (h : valueCount radix count ≤ wordLimit) (text : List Char) :
    takeDigits count radix text = ExceptT.lift (readEscapeDigits count radix text) := by
  rw [takeDigits, digitsOnto_eq (by rwa [Nat.zero_add, Nat.one_mul]), readEscapeDigits]
  cases (text.take count).mapM (digitValue? radix) with
  | none => rfl
  | some ds =>
    by_cases hlen : ds.length = count
    · simp only [if_pos hlen]
      rfl
    · simp only [if_neg hlen]
      rfl

theorem octal_iff (letter : Char) :
    '0' ≤ letter ∧ letter ≤ '7' ↔ 48 ≤ letter.toNat ∧ letter.toNat ≤ 55 := Iff.rfl

theorem isDigit_iff (letter : Char) :
    letter.isDigit = true ↔ 48 ≤ letter.toNat ∧ letter.toNat ≤ 57 := by
  rw [Char.isDigit, Bool.and_eq_true, decide_eq_true_iff, decide_eq_true_iff]
  exact Iff.rfl

theorem digitValue?_octal (letter : Char) : digitValue? 8 letter =
    if '0' ≤ letter ∧ letter ≤ '7' then some (letter.toNat - '0'.toNat) else none := by
  have hzero : '0'.toNat = 48 := rfl
  simp only [digitValue?, octal_iff, hzero]
  by_cases hd : letter.isDigit = true
  · have hrange := (isDigit_iff letter).1 hd
    by_cases hsmall : letter.toNat ≤ 55
    · rw [if_pos hd, if_pos ⟨hrange.1, hsmall⟩, Option.filter_some, if_pos (by simp; omega)]
    · rw [if_pos hd, if_neg fun h => hsmall h.2, Option.filter_some, if_neg (by simp; omega)]
  · have hnot : ¬(48 ≤ letter.toNat ∧ letter.toNat ≤ 55) := by
      intro h
      exact hd ((isDigit_iff letter).2 ⟨h.1, by omega⟩)
    -- letters count for ten and more
    rw [if_neg hd, if_neg hnot]
    split
    · rw [Option.filter_some, if_neg (by simp)]
    split
    · rw [Option.filter_some, if_neg (by simp)]
    · rfl

theorem readEscape_eq (letter : Char) (rest : List Char) :
    readEscape letter rest = ExceptT.lift (Text.readEscape letter rest) := by
  rw [readEscape, Text.readEscape]
  cases letterEscape? letter with
  | some byte => rfl
  | none =>
    simp only
    by_cases hx : letter = 'x'
    · rw [if_pos hx, if_pos hx, takeDigits_eq (by decide)]
      cases readEscapeDigits 2 16 rest <;> rfl
    rw [if_neg hx, if_neg hx, digitValue?_octal]
    by_cases hoctal : '0' ≤ letter ∧ letter ≤ '7'
    · have hu : ¬(letter = 'u' ∨ letter = 'U') := by
        rintro (rfl | rfl) <;> exact absurd hoctal (by decide)
      rw [if_pos hoctal, if_neg hu, if_pos hoctal, takeDigits_eq (by decide)]
      cases hlow : readEscapeDigits 2 8 rest with
      | error e => rfl
      | ok low =>
        have hlow : low < 64 := readEscapeDigits_lt hlow
        have hrange := (octal_iff letter).1 hoctal
        have hsub : sub letter.toNat '0'.toNat =
            (pure (letter.toNat - 48) : Checked (Except QuoteError) Nat) := sub_eq hrange.1
        have hmul : mul (letter.toNat - 48) 64 =
            (pure ((letter.toNat - 48) * 64) : Checked (Except QuoteError) Nat) :=
          mul_eq (by unfold wordLimit; omega)
        have hadd : add ((letter.toNat - 48) * 64) low =
            (pure ((letter.toNat - 48) * 64 + low) : Checked (Except QuoteError) Nat) :=
          add_eq (by unfold wordLimit; omega)
        have hlift : (ExceptT.lift (.ok low) : Checked (Except QuoteError) Nat) = pure low := rfl
        simp only [hlift, pure_bind, hsub, hmul, hadd]
        change _ = ExceptT.lift (if (letter.toNat - 48) * 64 + low < 256 then _ else _)
        split <;> rfl
    · rw [if_neg hoctal, if_neg hoctal]
      by_cases hu : letter = 'u' ∨ letter = 'U'
      · have hwidth : valueCount 16 (if letter = 'u' then 4 else 8) ≤ wordLimit := by
          split <;> decide
        rw [if_pos hu, if_pos hu, takeDigits_eq hwidth]
        cases readEscapeDigits (if letter = 'u' then 4 else 8) 16 rest with
        | error e => rfl
        | ok value =>
          change (if value.isValidChar then _ else _) =
            ExceptT.lift (if value.isValidChar then _ else _)
          split <;> rfl
      · rw [if_neg hu, if_neg hu]
        rfl

theorem unquoteBytes_eq (offset : Nat) (text : List Char) :
    unquoteBytes offset text = ExceptT.lift (Text.unquoteBytes offset text) := by
  fun_induction Text.unquoteBytes offset text with
  | case1 offset => rw [unquoteBytes]; rfl
  | case2 offset rest => rw [unquoteBytes]; rfl
  | case3 offset rest => rw [unquoteBytes]; rfl
  | case4 offset => rw [unquoteBytes]; rfl
  | case5 offset letter rest ih =>
    rw [unquoteBytes, readEscape_eq, lift_bind]
    refine bind_congr fun p => ?_
    obtain ⟨bytes, width⟩ := p
    rw [lift_bind]
    simp only [ih]
    rfl
  | case6 offset c rest hquote hline hback hescape ih =>
    rw [unquoteBytes, ih, lift_bind]
    · rfl
    all_goals assumption

theorem eq_of_inside? {mark : Char} {text inner : List Char} (h : inside? mark text = some inner) :
    text = mark :: (inner ++ [mark]) := by
  cases text with
  | nil => cases h
  | cons c rest =>
    rw [inside?] at h
    split at h <;> cases h
    next hmarks =>
      obtain ⟨init, rfl⟩ := List.getLast?_eq_some_iff.1 hmarks.2
      rw [hmarks.1, List.dropLast_concat]

/-- A text that begins and ends with a mark but has no inside is the mark alone. -/
theorem eq_singleton_of_inside? {mark : Char} {text : List Char} (h : inside? mark text = none)
    (hhead : text.head? = some mark) (hlast : text.getLast? = some mark) : text = [mark] := by
  cases text with
  | nil => cases hhead
  | cons c rest =>
    obtain rfl := Option.some.inj hhead
    cases hrest : rest.getLast? with
    | none => rw [List.getLast?_eq_none_iff.1 hrest]
    | some d =>
      rw [List.getLast?_cons, hrest] at hlast
      rw [inside?, if_pos ⟨rfl, hrest.trans hlast⟩] at h
      cases h

theorem unquote_eq (text : List Char) : unquote text = ExceptT.lift (Text.unquote text) := by
  have hone : '\x60'.utf8Size = 1 := rfl
  rw [unquote, Text.unquote]
  cases hinside : inside? '\x60' text with
  | some inner =>
    have htext := eq_of_inside? hinside
    have hsize : utf8Size text = 1 + utf8Size inner + 1 := by
      rw [htext, utf8Size_cons, utf8Size_append, utf8Size_cons, utf8Size_nil, hone]
      omega
    have hmarks : text.head? = some '\x60' ∧ text.getLast? = some '\x60' := by
      rw [htext]
      exact ⟨rfl, List.getLast?_concat (l := '\x60' :: inner)⟩
    have hstop : sub (utf8Size text) 1 =
        (pure (1 + utf8Size inner) : Checked (Except QuoteError) Nat) := by
      rw [sub_eq (by omega), hsize, Nat.add_sub_cancel]
    have hslice : slice text 1 (1 + utf8Size inner) =
        (pure inner : Checked (Except QuoteError) (List Char)) :=
      @slice_eq _ _ text ['\x60'] inner ['\x60'] _ _ htext rfl rfl
    rw [if_pos ⟨by omega, hmarks⟩, hstop, pure_bind, hslice, pure_bind]
    simp only
    split <;> rfl
  | none =>
    have hraw : ¬(2 ≤ utf8Size text ∧ text.head? = some '\x60' ∧ text.getLast? = some '\x60') := by
      rintro ⟨hsize, hhead, hlast⟩
      rw [eq_singleton_of_inside? hinside hhead hlast] at hsize
      exact absurd hsize (by decide)
    rw [if_neg hraw]
    cases inside? '"' text with
    | none => rfl
    | some body =>
      simp only
      rw [unquoteBytes_eq, lift_bind]
      refine bind_congr fun bytes => ?_
      cases utf8Decode bytes <;> rfl

end TypeIdentity.Offsets
