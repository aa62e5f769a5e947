import TypeIdentity.Proofs.Text.Trimming
import TypeIdentity.Text.Numeral

/-! # Reading numerals back

The digits of a number below the bound are read as that number, in every radix up to sixteen, and
decimal digits are ordinary characters.
-/
namespace TypeIdentity.Text

/-- The characters that stand for digits in any radix up to sixteen. -/
theorem digitValue?_digitChar {radix d : Nat} (hr : radix ≤ 16) (hd : d < radix) :
    digitValue? radix d.digitChar = some d := by
  have hall : ∀ r ≤ 16, ∀ d < r, digitValue? r d.digitChar = some d := by decide
  exact hall radix hr d hd

theorem isAlphanum_digitChar {d : Nat} (hd : d < 16) : d.digitChar.isAlphanum = true := by
  have hall : ∀ d < 16, d.digitChar.isAlphanum = true := by decide
  exact hall d hd

theorem exists_of_mem_toDigits {radix n : Nat} (hr : 1 < radix) {c : Char}
    (h : c ∈ Nat.toDigits radix n) : ∃ d < radix, c = d.digitChar := by
  induction n using Nat.strongRecOn with
  | _ n ih =>
    rw [Nat.toDigits_eq_if hr] at h
    split at h
    · next hlt => exact ⟨n, hlt, List.mem_singleton.1 h⟩
    · next hge =>
      rcases List.mem_append.1 h with h | h
      · exact ih (n / radix) (Nat.div_lt_self (by omega) hr) h
      · exact ⟨n % radix, Nat.mod_lt _ (by omega), List.mem_singleton.1 h⟩

/-- One more digit at the end of a numeral that has been read. -/
theorem readDigits_append {radix bound acc m d : Nat} {ds : List Char} {c : Char}
    (h : readDigits radix bound acc ds = .ok m) (hc : digitValue? radix c = some d)
    (hb : m * radix + d < bound) :
    readDigits radix bound acc (ds ++ [c]) = .ok (m * radix + d) := by
  induction ds generalizing acc with
  | nil =>
    obtain rfl : acc = m := by simpa [readDigits] using h
    simp [readDigits, hc, hb]
  | cons e ds ih =>
    rw [List.cons_append, readDigits]
    rw [readDigits] at h
    split at h
    · cases h
    · split at h
      · next hlt => simp only [if_pos hlt, ih h]
      · cases h

theorem readDigits_toDigits {radix bound n : Nat} (hr : 1 < radix) (hle : radix ≤ 16)
    (h : n < bound) : readDigits radix bound 0 (Nat.toDigits radix n) = .ok n := by
  induction n using Nat.strongRecOn with
  | _ n ih =>
    rw [Nat.toDigits_eq_if hr]
    split
    · next hlt => simp [readDigits, digitValue?_digitChar hle hlt, h]
    · next hge =>
      have hdiv : n / radix < n := Nat.div_lt_self (by omega) hr
      have hsum : n / radix * radix + n % radix = n := Nat.div_add_mod' n radix
      have hlast := digitValue?_digitChar hle (Nat.mod_lt n (by omega))
      have hread := readDigits_append (ih _ hdiv (by omega)) hlast (by omega)
      rwa [hsum] at hread

/-- Reading the digits of a number below the bound yields the number. -/
theorem readNumeral_toDigits {radix bound n : Nat} (hr : 1 < radix) (hle : radix ≤ 16)
    (h : n < bound) : readNumeral radix bound (Nat.toDigits radix n) = .ok n := by
  have hread := readDigits_toDigits hr hle h
  obtain ⟨c, rest, hc⟩ := List.exists_cons_of_ne_nil (Nat.toDigits_ne_nil (n := n) (b := radix))
  obtain ⟨d, hd, hcd⟩ := exists_of_mem_toDigits hr (c := c) (n := n) (by simp [hc])
  have hplus : c ≠ '+' := by
    have hd := isAlphanum_digitChar (Nat.lt_of_lt_of_le hd hle)
    rintro rfl
    rw [← hcd] at hd
    exact absurd hd (by decide)
  rw [hc] at hread ⊢
  rw [← hread]
  unfold readNumeral
  split
  · next he => cases he
  · next he => exact absurd (List.cons.inj he).1 hplus
  · next he => exact absurd (List.cons.inj he).1 hplus
  · rfl

theorem isDigit_of_mem_toDigits {c : Char} {n : Nat} (h : c ∈ Nat.toDigits 10 n) :
    c.isDigit = true :=
  Nat.isDigit_of_mem_toDigits (by decide) (by decide) h

theorem isOrdinary_of_isDigit {c : Char} (h : c.isDigit = true) : IsOrdinary c := by
  have hn : ∀ n < 58, 48 ≤ n → IsOrdinary (Char.ofNat n) := by decide
  have hr := Char.isDigit_iff_toNat.1 h
  have hc := hn c.toNat (by simp at hr; omega) (by simp at hr; omega)
  rwa [Char.ofNat_toNat] at hc

theorem isOrdinary_toDigits (n : Nat) : ∀ c ∈ Nat.toDigits 10 n, IsOrdinary c := by
  intro _ hc
  exact isOrdinary_of_isDigit (isDigit_of_mem_toDigits hc)

theorem trimmed_toDigits (n : Nat) : Trimmed (Nat.toDigits 10 n) :=
  trimmed_of_ordinary Nat.toDigits_ne_nil (isOrdinary_toDigits n)

end TypeIdentity.Text
