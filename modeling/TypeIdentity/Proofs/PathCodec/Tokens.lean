import TypeIdentity.PathCodec.Token
import TypeIdentity.Proofs.Text.Numerals

/-! # Reading tokens back

Every token is an identifier, so that none of its characters means anything to a scanner, and
decoding what stands after the mark yields the path.
-/
namespace TypeIdentity.PathCodec
open Text

theorem isIdentRest_of_isAlphanum {c : Char} (h : c.isAlphanum = true) : isIdentRest c = true := by
  have hall : ∀ n < 128, (Char.ofNat n).isAlphanum = true →
      isIdentRest (Char.ofNat n) = true := by decide +kernel
  have hlt : c.toNat < 128 := by
    change (decide ('A'.val ≤ c.val ∧ c.val ≤ 'Z'.val) ||
      (decide ('a'.val ≤ c.val) && decide (c.val ≤ 'z'.val)) ||
      (decide ('0'.val ≤ c.val) && decide (c.val ≤ '9'.val))) = true at h
    simp only [Bool.or_eq_true, Bool.and_eq_true, decide_eq_true_eq, UInt32.le_iff_toNat_le] at h
    change ((65 ≤ c.toNat ∧ c.toNat ≤ 90) ∨ (97 ≤ c.toNat ∧ c.toNat ≤ 122)) ∨
      (48 ≤ c.toNat ∧ c.toNat ≤ 57) at h
    omega
  have hc := hall c.toNat hlt
  rw [Char.ofNat_toNat] at hc
  exact hc h

/-! ## One character -/

/-- The code of a character between two underscores. -/
structure Escape (c : Char) (code : List Char) : Prop where
  means : escapedChar? code = some c
  rest : ∀ d ∈ code, isIdentRest d = true
  closed : '_' ∉ code

theorem escape_hex (c : Char) : Escape c ('x' :: Nat.toDigits 16 c.toNat) := by
  have hdigit : ∀ d ∈ Nat.toDigits 16 c.toNat, d.isAlphanum = true := by
    intro d hd
    obtain ⟨v, hv, rfl⟩ := exists_of_mem_toDigits (by decide) hd
    exact isAlphanum_digitChar hv
  have hsmall : c.toNat < UInt32.size := c.val.toNat_lt
  have hread : readNumeral 16 UInt32.size (Nat.toDigits 16 c.toNat) = .ok c.toNat :=
    readNumeral_toDigits (by decide) (by decide) hsmall
  refine ⟨?_, ?_, ?_⟩
  · rw [escapedChar?]
    simp only [hread]
    have hvalid : c.toNat.isValidChar := c.valid
    rw [if_pos hvalid, Char.ofNat_toNat]
  · intro d hd
    rcases List.mem_cons.1 hd with rfl | hd
    · decide
    · exact isIdentRest_of_isAlphanum (hdigit d hd)
  · intro hmem
    rcases List.mem_cons.1 hmem with h | h
    · exact absurd h (by decide)
    · exact absurd (hdigit '_' h) (by decide)

theorem escape_letter {c letter : Char} (hm : escapedChar? [letter] = some c)
    (hr : isIdentRest letter = true) (hl : '_' ≠ letter) : Escape c [letter] where
  means := hm
  rest _ hd := List.mem_singleton.1 hd ▸ hr
  closed hd := hl (List.mem_singleton.1 hd)

/-- A character is written as it is or between two underscores. -/
theorem encodeChar_cases (c : Char) :
    encodeChar c = [c] ∧ c.isAlphanum = true ∨
      ∃ code, encodeChar c = '_' :: (code ++ ['_']) ∧ Escape c code := by
  unfold encodeChar
  split
  · next h => exact .inl ⟨rfl, h⟩
  right
  split
  · next h => exact ⟨['u'], rfl, h ▸ escape_letter rfl (by decide) (by decide)⟩
  split
  · next h => exact ⟨['d'], rfl, h ▸ escape_letter rfl (by decide) (by decide)⟩
  split
  · next h => exact ⟨['s'], rfl, h ▸ escape_letter rfl (by decide) (by decide)⟩
  · exact ⟨_, by simp, escape_hex c⟩

theorem isIdentRest_of_mem_encodeChar {c d : Char} (h : d ∈ encodeChar c) :
    isIdentRest d = true := by
  rcases encodeChar_cases c with ⟨he, hc⟩ | ⟨code, he, hcode⟩
  · rw [he, List.mem_singleton] at h
    exact h ▸ isIdentRest_of_isAlphanum hc
  · simp only [he, List.mem_cons, List.mem_append, List.not_mem_nil, or_false] at h
    rcases h with rfl | h | rfl
    · decide
    · exact hcode.rest d h
    · decide

theorem decode_code {c : Char} {code : List Char} (hmeans : escapedChar? code = some c)
    (hclosed : '_' ∉ code) (rest : List Char) :
    decode ('_' :: (code ++ '_' :: rest)) = (c :: ·) <$> decode rest := by
  have hopen : ∀ d ∈ code, decide (d ≠ '_') = true := by
    intro d hd
    apply decide_eq_true
    rintro rfl
    exact hclosed hd
  have htake : (code ++ '_' :: rest).takeWhile (· ≠ '_') = code := by
    rw [List.takeWhile_append_of_pos hopen]
    simp
  have hdrop : (code ++ '_' :: rest).dropWhile (· ≠ '_') = '_' :: rest := by
    rw [List.dropWhile_append_of_pos hopen]
    simp
  rw [decode]
  split
  · next he => rw [hdrop] at he; cases he
  · next d after he =>
    rw [hdrop] at he
    obtain ⟨rfl, rfl⟩ := List.cons.inj he
    simp only [htake, hmeans]

theorem decode_encodeChar (c : Char) (rest : List Char) :
    decode (encodeChar c ++ rest) = (c :: ·) <$> decode rest := by
  rcases encodeChar_cases c with ⟨he, hc⟩ | ⟨code, he, hcode⟩
  · have hne : c ≠ '_' := by
      rintro rfl
      exact absurd hc (by decide)
    rw [he, List.singleton_append, decode]
    exact hne
  · have hrest : encodeChar c ++ rest = '_' :: (code ++ '_' :: rest) := by simp [he]
    rw [hrest]
    exact decode_code hcode.means hcode.closed rest

/-! ## Whole paths -/

theorem decode_flatMap_encodeChar (path : List Char) :
    decode (path.flatMap encodeChar) = .ok path := by
  induction path with
  | nil => simp [decode]
  | cons c path ih =>
    rw [List.flatMap_cons, decode_encodeChar, ih]
    rfl

theorem isIdentifier_encode (path : List Char) : isIdentifier (encode path) = true := by
  have hmark : encode path = 'x' :: ("wrap_".toList ++ path.flatMap encodeChar) := rfl
  rw [hmark, isIdentifier, Bool.and_eq_true]
  refine ⟨by decide, List.all_eq_true.2 ?_⟩
  intro d hd
  rcases List.mem_append.1 hd with hd | hd
  · have hall : ∀ d ∈ "wrap_".toList, isIdentRest d = true :=
      List.all_eq_true.1 (by decide)
    exact hall d hd
  · obtain ⟨c, -, hc⟩ := List.mem_flatMap.1 hd
    exact isIdentRest_of_mem_encodeChar hc

end TypeIdentity.PathCodec
