import Mathlib.Data.Bool.AllAny
import Mathlib.Data.List.Basic
import TypeIdentity.Scan.Quoting
import TypeIdentity.Text.Quoted

/-! # Reading what was quoted

Decoding UTF-8 undoes encoding it, and so reading a quoted string gives back the text that was
quoted.  To a scanner a quoted string is one block: it enters quotes at the first character and
leaves them at the last.
-/
namespace TypeIdentity.Text

/-! ## UTF-8 -/

theorem toNat_ofNat_of_lt {n : Nat} (h : n < 256) : (UInt8.ofNat n).toNat = n := by
  simp [Nat.mod_eq_of_lt h]

theorem isTail_iff {b : UInt8} : isTail b = true ↔ 0x80 ≤ b.toNat ∧ b.toNat ≤ 0xBF := by
  simp [isTail, UInt8.le_iff_toNat_le]

theorem isSecondOfThree_iff {a b : UInt8} : isSecondOfThree a b = true ↔
    isTail b = true ∧ (a.toNat = 0xE0 → 0xA0 ≤ b.toNat) ∧ (a.toNat = 0xED → b.toNat ≤ 0x9F) := by
  simp [isSecondOfThree, UInt8.le_iff_toNat_le, ← UInt8.toNat_inj, and_assoc,
    Classical.or_iff_not_imp_left]

theorem isSecondOfFour_iff {a b : UInt8} : isSecondOfFour a b = true ↔
    isTail b = true ∧ (a.toNat = 0xF0 → 0x90 ≤ b.toNat) ∧ (a.toNat = 0xF4 → b.toNat ≤ 0x8F) := by
  simp [isSecondOfFour, UInt8.le_iff_toNat_le, ← UInt8.toNat_inj, and_assoc,
    Classical.or_iff_not_imp_left]

section Bytes
variable {a b c d : UInt8} {index : Nat} {rest : List UInt8}

theorem utf8DecodeFrom_one (ha : a.toNat < 0x80) :
    utf8DecodeFrom index (a :: rest) =
      (Char.ofNat a.toNat :: ·) <$> utf8DecodeFrom (index + 1) rest := by
  rw [utf8DecodeFrom.eq_def]
  exact if_pos (UInt8.lt_iff_toNat_lt.2 ha)

theorem utf8DecodeFrom_two (ha : 0xC2 ≤ a.toNat) (ha' : a.toNat < 0xE0) (hb : isTail b = true) :
    utf8DecodeFrom index (a :: b :: rest) =
      (joinBits (a.toNat - 0xC0) [b] :: ·) <$> utf8DecodeFrom (index + 2) rest := by
  have h1 : ¬ a < 0x80 := by simp [UInt8.lt_iff_toNat_lt]; omega
  have h2 : ¬ a < 0xC2 := by simp [UInt8.lt_iff_toNat_lt]; omega
  have h3 : a < 0xE0 := UInt8.lt_iff_toNat_lt.2 ha'
  rw [utf8DecodeFrom.eq_def]
  simp only [if_neg h1, if_neg h2, if_pos h3, hb, if_true]

theorem utf8DecodeFrom_three (ha : 0xE0 ≤ a.toNat) (ha' : a.toNat < 0xF0)
    (hb : isSecondOfThree a b = true) (hc : isTail c = true) :
    utf8DecodeFrom index (a :: b :: c :: rest) =
      (joinBits (a.toNat - 0xE0) [b, c] :: ·) <$> utf8DecodeFrom (index + 3) rest := by
  have h1 : ¬ a < 0x80 := by simp [UInt8.lt_iff_toNat_lt]; omega
  have h2 : ¬ a < 0xC2 := by simp [UInt8.lt_iff_toNat_lt]; omega
  have h3 : ¬ a < 0xE0 := by simp [UInt8.lt_iff_toNat_lt]; omega
  have h4 : a < 0xF0 := UInt8.lt_iff_toNat_lt.2 ha'
  rw [utf8DecodeFrom.eq_def]
  simp only [if_neg h1, if_neg h2, if_neg h3, if_pos h4, hb, hc, if_true]

theorem utf8DecodeFrom_four (ha : 0xF0 ≤ a.toNat) (ha' : a.toNat < 0xF5)
    (hb : isSecondOfFour a b = true) (hc : isTail c = true) (hd : isTail d = true) :
    utf8DecodeFrom index (a :: b :: c :: d :: rest) =
      (joinBits (a.toNat - 0xF0) [b, c, d] :: ·) <$> utf8DecodeFrom (index + 4) rest := by
  have h1 : ¬ a < 0x80 := by simp [UInt8.lt_iff_toNat_lt]; omega
  have h2 : ¬ a < 0xC2 := by simp [UInt8.lt_iff_toNat_lt]; omega
  have h3 : ¬ a < 0xE0 := by simp [UInt8.lt_iff_toNat_lt]; omega
  have h4 : ¬ a < 0xF0 := by simp [UInt8.lt_iff_toNat_lt]; omega
  have h5 : a < 0xF5 := UInt8.lt_iff_toNat_lt.2 ha'
  rw [utf8DecodeFrom.eq_def]
  simp only [if_neg h1, if_neg h2, if_neg h3, if_neg h4, if_pos h5, hb, hc, hd, if_true]

end Bytes

/-- The bytes of a character are read back as that character. -/
theorem utf8DecodeFrom_encodeChar (c : Char) (index : Nat) (rest : List UInt8) :
    utf8DecodeFrom index (String.utf8EncodeChar c ++ rest) =
      (c :: ·) <$> utf8DecodeFrom (index + c.utf8Size) rest := by
  have hvalid : c.val.toNat < 0xD800 ∨ (0xDFFF < c.val.toNat ∧ c.val.toNat < 0x110000) := c.valid
  have hchar : Char.ofNat c.val.toNat = c := Char.ofNat_toNat c
  rw [← String.length_utf8EncodeChar]
  fun_cases String.utf8EncodeChar c with
  | case1 v h1 =>
    have ha : (UInt8.ofNat v).toNat = v := toNat_ofNat_of_lt (by omega)
    rw [List.singleton_append, utf8DecodeFrom_one (by omega), ha, hchar]
    rfl
  | case2 v h1 h2 =>
    have ha : (UInt8.ofNat (v / 64 % 32 + 192)).toNat = v / 64 + 192 := by
      rw [toNat_ofNat_of_lt (by omega)]; omega
    have hb : (UInt8.ofNat (v % 64 + 128)).toNat = v % 64 + 128 := toNat_ofNat_of_lt (by omega)
    rw [List.cons_append, List.singleton_append, utf8DecodeFrom_two (by omega) (by omega)
      (isTail_iff.2 (by omega)), joinBits, ha]
    simp only [List.foldl_cons, List.foldl_nil, hb]
    rw [show (v / 64 + 192 - 192) * 64 + (v % 64 + 128 - 128) = v by omega, hchar]
    rfl
  | case3 v h1 h2 h3 =>
    have ha : (UInt8.ofNat (v / 4096 % 16 + 224)).toNat = v / 4096 + 224 := by
      rw [toNat_ofNat_of_lt (by omega)]; omega
    have hb : (UInt8.ofNat (v / 64 % 64 + 128)).toNat = v / 64 % 64 + 128 :=
      toNat_ofNat_of_lt (by omega)
    have hc : (UInt8.ofNat (v % 64 + 128)).toNat = v % 64 + 128 := toNat_ofNat_of_lt (by omega)
    have hsecond := isSecondOfThree_iff (a := UInt8.ofNat (v / 4096 % 16 + 224))
      (b := UInt8.ofNat (v / 64 % 64 + 128))
    rw [isTail_iff, ha, hb] at hsecond
    rw [List.cons_append, List.cons_append, List.singleton_append,
      utf8DecodeFrom_three (by omega) (by omega) (hsecond.2 (by omega)) (isTail_iff.2 (by omega)),
      joinBits, ha]
    simp only [List.foldl_cons, List.foldl_nil, hb, hc]
    rw [show ((v / 4096 + 224 - 224) * 64 + (v / 64 % 64 + 128 - 128)) * 64 +
      (v % 64 + 128 - 128) = v by omega, hchar]
    rfl
  | case4 v h1 h2 h3 =>
    have ha : (UInt8.ofNat (v / 262144 % 8 + 240)).toNat = v / 262144 + 240 := by
      rw [toNat_ofNat_of_lt (by omega)]; omega
    have hb : (UInt8.ofNat (v / 4096 % 64 + 128)).toNat = v / 4096 % 64 + 128 :=
      toNat_ofNat_of_lt (by omega)
    have hc : (UInt8.ofNat (v / 64 % 64 + 128)).toNat = v / 64 % 64 + 128 :=
      toNat_ofNat_of_lt (by omega)
    have hd : (UInt8.ofNat (v % 64 + 128)).toNat = v % 64 + 128 := toNat_ofNat_of_lt (by omega)
    have hsecond := isSecondOfFour_iff (a := UInt8.ofNat (v / 262144 % 8 + 240))
      (b := UInt8.ofNat (v / 4096 % 64 + 128))
    rw [isTail_iff, ha, hb] at hsecond
    rw [List.cons_append, List.cons_append, List.cons_append, List.singleton_append,
      utf8DecodeFrom_four (by omega) (by omega) (hsecond.2 (by omega)) (isTail_iff.2 (by omega))
        (isTail_iff.2 (by omega)), joinBits, ha]
    simp only [List.foldl_cons, List.foldl_nil, hb, hc, hd]
    rw [show (((v / 262144 + 240 - 240) * 64 + (v / 4096 % 64 + 128 - 128)) * 64 +
      (v / 64 % 64 + 128 - 128)) * 64 + (v % 64 + 128 - 128) = v by omega, hchar]
    rfl

theorem utf8DecodeFrom_encode (text : List Char) (index : Nat) :
    utf8DecodeFrom index (utf8Encode text) = .ok text := by
  induction text generalizing index with
  | nil => rfl
  | cons c rest ih =>
    rw [utf8Encode, List.flatMap_cons, utf8DecodeFrom_encodeChar]
    have hr := ih (index + c.utf8Size)
    rw [utf8Encode] at hr
    rw [hr]
    rfl

/-! ## Escapes -/

theorem readEscapeDigits_append {count radix : Nat} {ds rest : List Char} (hl : ds.length = count) :
    readEscapeDigits count radix (ds ++ rest) = readEscapeDigits count radix ds := by
  have ht : (ds ++ rest).take count = ds.take count := by rw [← hl, List.take_left, List.take_length]
  rw [readEscapeDigits, readEscapeDigits, ht]

/-- A number below 256 that is written with hexadecimal digits is read back. -/
theorem readEscapeDigits_digits {width n : Nat} (hw : width = 2 ∨ width = 4) (hn : n < 256)
    (rest : List Char) : (digits 16 width n).length = width ∧
      readEscapeDigits width 16 (digits 16 width n ++ rest) = .ok n := by
  have spelled : ∀ w ∈ [2, 4], ∀ n < 256, (digits 16 w n).length = w ∧
      readEscapeDigits w 16 (digits 16 w n) = .ok n := by decide +kernel
  obtain ⟨hl, hv⟩ := spelled width (by simpa using hw) n hn
  exact ⟨hl, (readEscapeDigits_append hl).trans hv⟩

theorem unquoteBytes_escape {letter : Char} {rest : List Char} {bytes : List UInt8} {width : Nat}
    (code : List Char) (hw : code.length = width)
    (he : readEscape letter (code ++ rest) = .ok (bytes, width))
    (offset : Nat) : unquoteBytes offset ('\\' :: letter :: (code ++ rest)) =
      (bytes ++ ·) <$> unquoteBytes (offset + (1 + letter.utf8Size + utf8Size code)) rest := by
  rw [unquoteBytes, he]
  simp only [bind, Except.bind]
  rw [← hw, List.drop_left, List.take_left]
  cases unquoteBytes _ rest <;> rfl

theorem unquoteBytes_visible {c : Char} (hq : c ≠ '"') (hn : c ≠ '\n') (hb : c ≠ '\\')
    (offset : Nat) (rest : List Char) : unquoteBytes offset (c :: rest) =
      (String.utf8EncodeChar c ++ ·) <$> unquoteBytes (offset + c.utf8Size) rest := by
  rw [unquoteBytes]
  · cases unquoteBytes _ rest <;> rfl
  all_goals simp_all

theorem unquoteBytes_quoteChar (c : Char) (offset : Nat) (rest : List Char) :
    ∃ next, unquoteBytes offset (quoteChar c ++ rest) =
      (String.utf8EncodeChar c ++ ·) <$> unquoteBytes next rest := by
  have letter (l : Char) (hl : readEscape l rest = .ok (String.utf8EncodeChar c, 0)) :
      ∃ next, unquoteBytes offset (['\\', l] ++ rest) =
        (String.utf8EncodeChar c ++ ·) <$> unquoteBytes next rest :=
    ⟨_, unquoteBytes_escape [] rfl hl offset⟩
  have digits (l : Char) (w : Nat) (hl : (digits 16 w c.toNat).length = w)
      (he : readEscape l (digits 16 w c.toNat ++ rest) = .ok (String.utf8EncodeChar c, w)) :
      ∃ next, unquoteBytes offset (['\\', l] ++ digits 16 w c.toNat ++ rest) =
        (String.utf8EncodeChar c ++ ·) <$> unquoteBytes next rest :=
    ⟨_, unquoteBytes_escape _ hl he offset⟩
  fun_cases quoteChar c with
  | case1 | case2 | case3 | case4 | case5 | case6 | case7 | case8 | case9 =>
    subst_vars
    exact letter _ rfl
  | case10 hq hb _ _ _ hn _ _ _ _ => exact ⟨_, unquoteBytes_visible hq hn hb offset rest⟩
  | case11 _ _ _ _ _ _ _ _ _ _ hascii =>
    obtain ⟨hl, hr⟩ := readEscapeDigits_digits (.inl rfl) (by omega : c.toNat < 256) rest
    apply digits 'x' 2 hl
    have he : String.utf8EncodeChar c = [c.toNat.toUInt8] := by
      rw [String.utf8EncodeChar]
      exact if_pos (Nat.lt_succ_iff.1 hascii)
    rw [readEscape, he]
    simp only [letterEscape?, if_true, hr]
    rfl
  | case12 _ _ _ _ _ _ _ _ _ hc hascii =>
    have hsmall : c.toNat < 256 := by
      simp only [isControl, Bool.not_eq_true', Bool.or_eq_false_iff, Bool.and_eq_false_iff,
        decide_eq_false_iff_not] at hc
      omega
    obtain ⟨hl, hr⟩ := readEscapeDigits_digits (.inr rfl) hsmall rest
    apply digits 'u' 4 hl
    have hv : c.toNat.isValidChar := c.valid
    rw [readEscape]
    simp only [letterEscape?, if_true, hr, hv, bind, Except.bind, true_or]
    rw [if_neg (by decide), Char.ofNat_toNat]
    simp [utf8Encode]
    rfl

theorem unquoteBytes_quoted (text : List Char) (offset : Nat) :
    unquoteBytes offset (text.flatMap quoteChar) = .ok (utf8Encode text) := by
  induction text generalizing offset with
  | nil => rw [List.flatMap_nil, unquoteBytes]; rfl
  | cons c rest ih =>
    obtain ⟨next, hn⟩ := unquoteBytes_quoteChar c offset (rest.flatMap quoteChar)
    rw [List.flatMap_cons, hn, ih]
    rfl

theorem inside?_quote (text : List Char) :
    inside? '"' (quote text) = some (text.flatMap quoteChar) := by
  simp [inside?, quote]

/-- Reading a quoted text gives the text back. -/
theorem unquote_quote (text : List Char) : unquote (quote text) = .ok text := by
  have hraw : inside? '\x60' (quote text) = none := by simp [inside?, quote]
  rw [unquote, hraw, inside?_quote]
  simp only [unquoteBytes_quoted, bind, Except.bind, utf8Decode, utf8DecodeFrom_encode]
  rfl

/-! ## Quoted strings as blocks -/

theorem small_of_isControl {c : Char} (h : isControl c = true) : c.toNat < 256 := by
  simp only [isControl, Bool.or_eq_true, Bool.and_eq_true, decide_eq_true_eq] at h
  omega

/-- A character is written as itself, or as a backslash, a letter and digits. -/
theorem quoteChar_form (c : Char) :
    (quoteChar c = [c] ∧ c ≠ '"' ∧ c ≠ '\\') ∨
      ∃ letter ds, quoteChar c = '\\' :: letter :: ds ∧ ∀ d ∈ ds, d ≠ '"' ∧ d ≠ '\\' := by
  have plain : ∀ w ∈ [2, 4], ∀ n < 256, ∀ d ∈ digits 16 w n, d ≠ '"' ∧ d ≠ '\\' := by
    have hall : ∀ w ∈ [2, 4], ∀ n < 256,
        ((digits 16 w n).all fun d => d ≠ '"' ∧ d ≠ '\\') = true := by
      decide +kernel
    intro w hw n hn
    exact List.all_iff_forall_prop.1 (hall w hw n hn)
  fun_cases quoteChar c with
  | case1 | case2 | case3 | case4 | case5 | case6 | case7 | case8 | case9 =>
    exact .inr ⟨_, [], rfl, by simp⟩
  | case10 hq hb => exact .inl ⟨rfl, hq, hb⟩
  | case11 _ _ _ _ _ _ _ _ _ hc =>
    have hs := small_of_isControl (by simpa using hc)
    exact .inr ⟨'x', _, rfl, plain 2 (by simp) _ hs⟩
  | case12 _ _ _ _ _ _ _ _ _ hc =>
    have hs := small_of_isControl (by simpa using hc)
    exact .inr ⟨'u', _, rfl, plain 4 (by simp) _ hs⟩

end TypeIdentity.Text

namespace TypeIdentity.Scan.Quoting
open Text

/-- Nothing in a text is structural when the scanner comes to it. -/
def Passes : Quoting → List Char → Prop
  | _, [] => True
  | q, c :: rest => q.isStructural c = false ∧ Passes (q.step c) rest

theorem passes_append {q : Quoting} {u v : List Char} (hu : q.Passes u) (hv : (q.run u).Passes v) :
    q.Passes (u ++ v) := by
  induction u generalizing q with
  | nil => exact hv
  | cons c rest ih => exact ⟨hu.1, ih hu.2 hv⟩

def inside : Quoting := ⟨true, false⟩

theorem inside_plain {ds : List Char} (h : ∀ d ∈ ds, d ≠ '"' ∧ d ≠ '\\') :
    inside.Passes ds ∧ inside.run ds = inside := by
  induction ds with
  | nil => exact ⟨trivial, rfl⟩
  | cons d rest ih =>
    obtain ⟨hq, hb⟩ := h d (List.mem_cons_self ..)
    have hstep : inside.step d = inside := by simp [inside, step, hq, hb]
    obtain ⟨hp, hr⟩ := ih fun e he => h e (List.mem_cons_of_mem _ he)
    exact ⟨⟨rfl, by rw [hstep]; exact hp⟩, by rw [run_cons, hstep, hr]⟩

theorem inside_quoteChar (c : Char) :
    inside.Passes (quoteChar c) ∧ inside.run (quoteChar c) = inside := by
  rcases quoteChar_form c with ⟨he, hq, hb⟩ | ⟨letter, ds, he, hd⟩
  · rw [he]
    exact inside_plain (by simpa using ⟨hq, hb⟩)
  · rw [he]
    obtain ⟨hp, hr⟩ := inside_plain hd
    have hstep : (inside.step '\\').step letter = inside := rfl
    exact ⟨⟨rfl, rfl, by rw [hstep]; exact hp⟩, by rw [run_cons, run_cons, hstep, hr]⟩

theorem inside_quoted (text : List Char) :
    inside.Passes (text.flatMap quoteChar) ∧ inside.run (text.flatMap quoteChar) = inside := by
  induction text with
  | nil => exact ⟨trivial, rfl⟩
  | cons c rest ih =>
    obtain ⟨hp, hr⟩ := inside_quoteChar c
    rw [List.flatMap_cons, run_append, hr]
    exact ⟨passes_append hp (by rw [hr]; exact ih.1), ih.2⟩

/-- A scanner passes over a quoted string and is then where it was before. -/
theorem plain_quote (text : List Char) :
    plain.Passes (quote text) ∧ plain.run (quote text) = plain := by
  obtain ⟨hp, hr⟩ := inside_quoted text
  have hstep : plain.step '"' = inside := rfl
  rw [quote, List.cons_append, run_cons, hstep, run_append, hr]
  exact ⟨⟨rfl, by rw [hstep]; exact passes_append hp (by rw [hr]; exact ⟨rfl, trivial⟩)⟩, rfl⟩

end TypeIdentity.Scan.Quoting
