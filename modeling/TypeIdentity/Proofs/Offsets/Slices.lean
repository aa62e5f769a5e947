import TypeIdentity.Text.Utf8

/-! # Slices of encoded text

A program that works on encoded text names places in it by byte offsets.  It is cut off by a fault
where a slice is out of range or begins or ends inside a character, where a counter leaves its range,
and where a text that was to be shorter is not.  The computations here stop at such faults, so that
one that equals a computation which knows of no faults has none.
-/
namespace TypeIdentity.Offsets
open Text

/-- What cuts a computation off. -/
inductive Fault
  | slice
  | underflow
  | overflow
  | notShorter
  deriving DecidableEq, Repr

/-- Computations of `m` that a fault may cut off. -/
abbrev Checked (m : Type → Type) := ExceptT Fault m

/-- Fails as `m` does, without a fault. -/
def refuse {ε α : Type} (e : ε) : Checked (Except ε) α := ExceptT.lift (.error e)

/-- Offsets, depths and the values of digits are words of at least 32 bits. -/
def wordLimit : Nat := 0x100000000

/-- Texts have less than 2³¹ bytes. -/
def sizeLimit : Nat := 0x80000000

/-- Counters that may become negative have 32 bits. -/
def counterLimit : Int := 0x80000000

/-- Cuts a text at a byte offset; there must be a character boundary. -/
def splitAt? : List Char → Nat → Option (List Char × List Char)
  | text, 0 => some ([], text)
  | [], _ + 1 => none
  | c :: rest, n + 1 =>
    if c.utf8Size ≤ n + 1 then
      (splitAt? rest (n + 1 - c.utf8Size)).map fun p => (c :: p.1, p.2)
    else none

section
variable {m : Type → Type} [Monad m]

/-- The text between two byte offsets. -/
def slice (text : List Char) (start stop : Nat) : Checked m (List Char) :=
  match splitAt? text stop with
  | none => throw .slice
  | some (before, _) =>
    match splitAt? before start with
    | none => throw .slice
    | some (_, part) => pure part

def sliceFrom (text : List Char) (start : Nat) : Checked m (List Char) :=
  slice text start (utf8Size text)

def sliceTo (text : List Char) (stop : Nat) : Checked m (List Char) := slice text 0 stop

def add (a b : Nat) : Checked m Nat :=
  if a + b < wordLimit then pure (a + b) else throw .overflow

def mul (a b : Nat) : Checked m Nat :=
  if a * b < wordLimit then pure (a * b) else throw .overflow

def sub (a b : Nat) : Checked m Nat := if b ≤ a then pure (a - b) else throw .underflow

/-- The text behind the character at an offset, which takes one byte. -/
def sliceBehind (text : List Char) (i : Nat) : Checked m (List Char) := do
  sliceFrom text (← add i 1)

def addCount (a b : Int) : Checked m Int :=
  if -counterLimit ≤ a + b ∧ a + b < counterLimit then pure (a + b) else throw .overflow

/-! ## Sizes -/

theorem utf8Size_nil : utf8Size [] = 0 := rfl

theorem utf8Size_cons (c : Char) (text : List Char) :
    utf8Size (c :: text) = c.utf8Size + utf8Size text := rfl

theorem utf8Size_append (u v : List Char) :
    utf8Size (u ++ v) = utf8Size u + utf8Size v := by
  induction u with
  | nil => simp [utf8Size_nil]
  | cons c u ih => simp [utf8Size_cons, ih, Nat.add_assoc]

theorem utf8Size_reverse (u : List Char) : utf8Size u.reverse = utf8Size u := by
  induction u with
  | nil => rfl
  | cons c u ih => simp [utf8Size_append, utf8Size_cons, utf8Size_nil, ih, Nat.add_comm]

theorem utf8Size_eq_zero {u : List Char} (h : utf8Size u = 0) : u = [] := by
  cases u with
  | nil => rfl
  | cons c u =>
    have hc := c.utf8Size_pos
    simp only [utf8Size_cons] at h
    omega

theorem length_utf8Encode (text : List Char) : (utf8Encode text).length = utf8Size text := by
  induction text with
  | nil => rfl
  | cons c text ih =>
    rw [utf8Encode] at ih ⊢
    rw [List.flatMap_cons, List.length_append, ih, String.length_utf8EncodeChar, utf8Size_cons]

theorem length_le_utf8Size (u : List Char) : u.length ≤ utf8Size u := by
  induction u with
  | nil => simp
  | cons c u ih =>
    have hc := c.utf8Size_pos
    simp only [List.length_cons, utf8Size_cons]
    omega

theorem utf8Size_le_of_isInfix {part whole : List Char} (h : part <:+: whole) :
    utf8Size part ≤ utf8Size whole := by
  obtain ⟨before, after, rfl⟩ := h
  simp only [utf8Size_append]
  omega

theorem sizeLimit_of_isInfix {part whole : List Char} (h : part <:+: whole)
    (hlimit : utf8Size whole < sizeLimit) : utf8Size part < sizeLimit :=
  Nat.lt_of_le_of_lt (utf8Size_le_of_isInfix h) hlimit

/-- The offset behind the end of a text is still a word. -/
theorem wordLimit_of_sizeLimit {n : Nat} (h : n < sizeLimit) : n + 1 < wordLimit := by
  unfold sizeLimit at h
  unfold wordLimit
  omega

/-- A part that lacks a character of the whole also lacks its bytes. -/
theorem utf8Size_lt_of_isInfix {part whole : List Char} (h : part <:+: whole)
    (hl : part.length < whole.length) : utf8Size part < utf8Size whole := by
  obtain ⟨before, after, rfl⟩ := h
  have hb := length_le_utf8Size before
  have ha := length_le_utf8Size after
  simp only [List.length_append, utf8Size_append] at hl ⊢
  omega

/-! ## Computations without faults -/

section
variable [LawfulMonad m] {α β : Type}

theorem lift_bind (x : m α) (f : α → m β) :
    (ExceptT.lift (x >>= f) : Checked m β) = ExceptT.lift x >>= fun a => ExceptT.lift (f a) := by
  apply ExceptT.ext
  simp

end

/-! ## Slices at boundaries -/

theorem splitAt?_append (u v : List Char) : splitAt? (u ++ v) (utf8Size u) = some (u, v) := by
  induction u with
  | nil => cases v <;> rfl
  | cons c u ih =>
    obtain ⟨n, hn⟩ : ∃ n, c.utf8Size + utf8Size u = n + 1 := by
      have hc := c.utf8Size_pos
      exact ⟨c.utf8Size + utf8Size u - 1, by omega⟩
    have hrest : n + 1 - c.utf8Size = utf8Size u := by omega
    rw [utf8Size_cons, hn, List.cons_append, splitAt?, if_pos (by omega), hrest, ih]
    rfl

theorem slice_eq {text before part after : List Char} {start stop : Nat}
    (ht : text = before ++ (part ++ after)) (hstart : start = utf8Size before)
    (hstop : stop = utf8Size before + utf8Size part) :
    slice text start stop = (pure part : Checked m _) := by
  have hleft : splitAt? text stop = some (before ++ part, after) := by
    rw [ht, hstop, ← utf8Size_append, ← List.append_assoc]
    exact splitAt?_append _ _
  rw [slice, hleft]
  simp only [hstart, splitAt?_append]

theorem sliceFrom_eq {text before part : List Char} {start : Nat} (ht : text = before ++ part)
    (hstart : start = utf8Size before) : sliceFrom text start = (pure part : Checked m _) :=
  slice_eq (by rw [ht, List.append_nil]) hstart (by rw [ht, utf8Size_append])

theorem sliceTo_eq {text part after : List Char} {stop : Nat} (ht : text = part ++ after)
    (hstop : stop = utf8Size part) : sliceTo text stop = (pure part : Checked m _) :=
  slice_eq (by rw [ht, List.nil_append]) rfl (by rw [hstop, utf8Size_nil, Nat.zero_add])

theorem add_eq {a b : Nat} (h : a + b < wordLimit) : add a b = (pure (a + b) : Checked m _) :=
  if_pos h

theorem sliceBehind_eq [LawfulMonad m] {text before after : List Char} {c : Char} {i : Nat}
    (hlimit : utf8Size text < sizeLimit) (hc : c.utf8Size = 1) (ht : text = before ++ c :: after)
    (hi : i = utf8Size before) : sliceBehind text i = (pure after : Checked m _) := by
  have hsize : utf8Size text = utf8Size before + 1 + utf8Size after := by
    rw [ht, utf8Size_append, utf8Size_cons, hc, Nat.add_assoc]
  have hadd : add i 1 = (pure (utf8Size before + 1) : Checked m _) := by
    rw [hi]
    exact add_eq (Nat.lt_of_le_of_lt (by omega) (wordLimit_of_sizeLimit hlimit))
  have hcut : text = (before ++ [c]) ++ after := by rw [ht]; simp
  rw [sliceBehind, hadd, pure_bind]
  refine sliceFrom_eq hcut ?_
  rw [utf8Size_append, utf8Size_cons, hc, utf8Size_nil]

theorem mul_eq {a b : Nat} (h : a * b < wordLimit) : mul a b = (pure (a * b) : Checked m _) :=
  if_pos h

theorem sub_eq {a b : Nat} (h : b ≤ a) : sub a b = (pure (a - b) : Checked m _) := if_pos h

theorem addCount_eq {a b : Int} (h : -counterLimit ≤ a + b ∧ a + b < counterLimit) :
    addCount a b = (pure (a + b) : Checked m _) := if_pos h

end

/-! ## Where a character stands -/

/-- The byte offset of the first occurrence of a character. -/
def firstOffset? (c : Char) : List Char → Option Nat
  | [] => none
  | d :: rest => if d = c then some 0 else (firstOffset? c rest).map (d.utf8Size + ·)

/-- The byte offset of the last occurrence of a character. -/
def lastOffset? (c : Char) : List Char → Option Nat
  | [] => none
  | d :: rest =>
    match lastOffset? c rest with
    | some i => some (d.utf8Size + i)
    | none => if d = c then some 0 else none

theorem firstOffset?_eq (c : Char) (text : List Char) :
    firstOffset? c text =
      if text.dropWhile (· ≠ c) = [] then none else some (utf8Size (text.takeWhile (· ≠ c))) := by
  induction text with
  | nil => rfl
  | cons d rest ih =>
    rw [firstOffset?]
    by_cases hd : d = c
    · rw [if_pos hd, List.dropWhile_cons_of_neg (by simpa using hd),
        List.takeWhile_cons_of_neg (by simpa using hd), if_neg (List.cons_ne_nil d rest)]
      rfl
    · rw [if_neg hd, List.dropWhile_cons_of_pos (by simpa using hd),
        List.takeWhile_cons_of_pos (by simpa using hd), ih]
      split <;> rfl

/-- What is left from the first occurrence of a character on begins with it. -/
theorem dropWhile_ne (c : Char) (text : List Char) :
    text.dropWhile (· ≠ c) = [] ∨ ∃ rest, text.dropWhile (· ≠ c) = c :: rest := by
  cases hd : text.dropWhile (· ≠ c) with
  | nil => exact .inl rfl
  | cons d rest =>
    have hhead := List.head?_dropWhile_not (· ≠ c) text
    rw [hd] at hhead
    obtain rfl : d = c := by simpa using hhead
    exact .inr ⟨rest, rfl⟩

theorem lastOffset?_none {c : Char} {text : List Char} (h : c ∉ text) :
    lastOffset? c text = none := by
  induction text with
  | nil => rfl
  | cons d rest ih =>
    obtain ⟨hd, hrest⟩ := not_or.1 (mt List.mem_cons.2 h)
    rw [lastOffset?, ih hrest]
    exact if_neg (Ne.symm hd)

theorem lastOffset?_append {c : Char} {v : List Char} (h : c ∉ v) (u : List Char) :
    lastOffset? c (u ++ c :: v) = some (utf8Size u) := by
  induction u with
  | nil =>
    rw [List.nil_append, lastOffset?, lastOffset?_none h]
    exact if_pos rfl
  | cons d u ih =>
    rw [List.cons_append, lastOffset?, ih]
    rfl

end TypeIdentity.Offsets
