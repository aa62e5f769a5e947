import TypeIdentity.Error
import TypeIdentity.Proofs.Offsets.Slices

/-! # Scanning bytes

The scanners go over the bytes of a text, take each of them for a character of its own, and pass
over one byte after a backslash, whatever character that byte belongs to.  What they look for are
ASCII characters, and no byte of any other character is taken for one of these, so they see what a
scanner of characters sees and stop at the same places.
-/
namespace TypeIdentity.Offsets
open Text

section
variable {m : Type → Type} [Monad m] {σ : Type}

/-- Goes over bytes by their offsets.  A step says what becomes of the state and whether the byte
after this one is passed over. -/
def walk (step : σ → Nat → Char → Checked m (σ × Bool)) (bytes : List UInt8) (i : Nat) (s : σ) :
    Checked m σ :=
  if h : i < bytes.length then do
    let (s, skip) ← step s i (Char.ofNat bytes[i].toNat)
    let width := if skip then 2 else 1
    if i + width < wordLimit then walk step bytes (i + width) s else throw .overflow
  else pure s
termination_by bytes.length - i
decreasing_by
  have : 1 ≤ width := by
    simp only [width]
    split <;> omega
  omega

/-- Goes over the characters of a text in the same way; `skip` passes over the first one. -/
def walkText (step : σ → Nat → Char → Checked m (σ × Bool)) (s : σ) (skip : Bool) (i : Nat) :
    List Char → Checked m σ
  | [] => pure s
  | c :: rest =>
    if skip then walkText step s false (i + c.utf8Size) rest
    else do
      let (s, skip) ← step s i c
      walkText step s skip (i + c.utf8Size) rest

/-- Only ASCII characters make a difference. -/
def Ascii (step : σ → Nat → Char → Checked m (σ × Bool)) : Prop :=
  ∀ s i c, 0x80 ≤ c.toNat → step s i c = pure (s, false)

end

/-! ## The bytes of a character -/

theorem utf8EncodeChar_ascii {c : Char} (h : c.toNat < 0x80) :
    String.utf8EncodeChar c = [UInt8.ofNat c.toNat] ∧ c.utf8Size = 1 := by
  have hencode : String.utf8EncodeChar c = [UInt8.ofNat c.toNat] := by
    fun_cases String.utf8EncodeChar c with
    | case1 => rfl
    | case2 v h1 | case3 v h1 | case4 v h1 => exact absurd (show c.val.toNat < 0x80 from h) (by omega)
  exact ⟨hencode, by rw [← String.length_utf8EncodeChar, hencode]; rfl⟩

theorem ne_of_ascii {c d : Char} (hc : 0x80 ≤ c.toNat) (hd : d.toNat < 0x80) : c ≠ d := by
  rintro rfl
  omega

theorem le_of_mem_utf8EncodeChar {c : Char} (h : 0x80 ≤ c.toNat) :
    ∀ b ∈ String.utf8EncodeChar c, 0x80 ≤ b.toNat := by
  have hc : 0x80 ≤ c.val.toNat := h
  have hof {n : Nat} (hn : 0x80 ≤ n) (hn' : n < 256) : 0x80 ≤ (UInt8.ofNat n).toNat := by
    rw [UInt8.toNat_ofNat_of_lt' hn']
    exact hn
  intro b hb
  fun_cases String.utf8EncodeChar c with
  | case1 v h1 => omega
  | case2 v h1 h2 =>
    rw [String.utf8EncodeChar, if_neg h1, if_pos h2] at hb
    simp only [List.mem_cons, List.not_mem_nil, or_false] at hb
    rcases hb with rfl | rfl <;> exact hof (by omega) (by omega)
  | case3 v h1 h2 h3 =>
    rw [String.utf8EncodeChar, if_neg h1, if_neg h2, if_pos h3] at hb
    simp only [List.mem_cons, List.not_mem_nil, or_false] at hb
    rcases hb with rfl | rfl | rfl <;> exact hof (by omega) (by omega)
  | case4 v h1 h2 h3 =>
    rw [String.utf8EncodeChar, if_neg h1, if_neg h2, if_neg h3] at hb
    simp only [List.mem_cons, List.not_mem_nil, or_false] at hb
    rcases hb with rfl | rfl | rfl | rfl <;> exact hof (by omega) (by omega)

theorem toNat_ofNat_byte (b : UInt8) : (Char.ofNat b.toNat).toNat = b.toNat := by
  have hb := b.toNat_lt
  rw [Char.ofNat, dif_pos (show b.toNat.isValidChar from .inl (by omega))]
  rfl

section
variable {m : Type → Type} [Monad m] [LawfulMonad m] {σ : Type}
  {step : σ → Nat → Char → Checked m (σ × Bool)}

/-- Bytes of other characters are passed over one by one. -/
theorem walk_pass (hs : Ascii step) {bytes : List UInt8} (hlimit : bytes.length + 1 < wordLimit)
    (s : σ) {i j : Nat} (hij : i ≤ j) (hj : j ≤ bytes.length)
    (hb : ∀ k (hk : k < bytes.length), i ≤ k → k < j → 0x80 ≤ bytes[k].toNat) :
    walk step bytes i s = walk step bytes j s := by
  obtain ⟨n, rfl⟩ := Nat.exists_eq_add_of_le hij
  induction n generalizing i with
  | zero => rfl
  | succ n ih =>
    have hi : i < bytes.length := by omega
    have hstep := hs s i (Char.ofNat bytes[i].toNat) (by
      rw [toNat_ofNat_byte]
      exact hb i hi (Nat.le_refl i) (by omega))
    have hrest : walk step bytes (i + 1) s = walk step bytes (i + 1 + n) s :=
      ih (by omega) (by omega) fun k hk hik hkj => hb k hk (by omega) (by omega)
    have hoffset : i + 1 + n = i + (n + 1) := by omega
    rw [walk, dif_pos hi, hstep, pure_bind]
    simp only [Bool.false_eq_true, if_false]
    rw [if_pos (by omega), hrest, hoffset]

/-- At a boundary, or one byte past it when a byte is to be passed over, the bytes that are left are
scanned like the characters they encode. -/
theorem walk_encode (hs : Ascii step) (before rest : List Char)
    (hlimit : utf8Size (before ++ rest) + 1 < wordLimit) (s : σ) (skip : Bool) :
    walk step (utf8Encode (before ++ rest)) (utf8Size before + if skip then 1 else 0) s =
      walkText step s skip (utf8Size before) rest := by
  induction rest generalizing before s skip with
  | nil =>
    rw [walkText, walk, dif_neg]
    rw [length_utf8Encode, List.append_nil]
    omega
  | cons c rest ih =>
    have hmove : before ++ c :: rest = (before ++ [c]) ++ rest := by simp
    have hsize : utf8Size (before ++ [c]) = utf8Size before + c.utf8Size := by
      simp [utf8Size_append, utf8Size_cons, utf8Size_nil]
    have hnext (s : σ) (skip : Bool) := by
      have hih := ih (before ++ [c]) (hmove ▸ hlimit) s skip
      rw [← hmove, hsize] at hih
      exact hih
    have hbytes : utf8Encode (before ++ c :: rest) =
        utf8Encode before ++ (String.utf8EncodeChar c ++ utf8Encode rest) := by
      simp [utf8Encode]
    have hlength : (utf8Encode (before ++ c :: rest)).length =
        utf8Size before + (c.utf8Size + utf8Size rest) := by
      rw [length_utf8Encode, utf8Size_append, utf8Size_cons]
    have hpos := c.utf8Size_pos
    have hlimit' : (utf8Encode (before ++ c :: rest)).length + 1 < wordLimit := by
      rwa [length_utf8Encode]
    have hpass (hc : 0x80 ≤ c.toNat) (s : σ) {i : Nat} (hi : utf8Size before ≤ i)
        (hi' : i ≤ utf8Size before + c.utf8Size) :
        walk step (utf8Encode (before ++ c :: rest)) i s =
          walk step (utf8Encode (before ++ c :: rest)) (utf8Size before + c.utf8Size) s := by
      refine walk_pass hs hlimit' s hi' (by omega) fun k hk hik hkj => ?_
      have hin : k - utf8Size before < (String.utf8EncodeChar c).length := by
        rw [String.length_utf8EncodeChar]
        omega
      have hbyte : (utf8Encode (before ++ c :: rest))[k] =
          (String.utf8EncodeChar c)[k - utf8Size before] := by
        simp only [hbytes]
        rw [List.getElem_append_right (by rw [length_utf8Encode]; omega),
          List.getElem_append_left (by rw [length_utf8Encode]; exact hin)]
        simp only [length_utf8Encode]
      rw [hbyte]
      exact le_of_mem_utf8EncodeChar hc _ (List.getElem_mem _)
    have hbefore : utf8Size before < (utf8Encode (before ++ c :: rest)).length := by omega
    rw [walkText]
    by_cases hc : 0x80 ≤ c.toNat
    · have hgo : walk step (utf8Encode (before ++ c :: rest))
          (utf8Size before + if skip then 1 else 0) s =
          walkText step s false (utf8Size before + c.utf8Size) rest := by
        rw [hpass hc s (by omega) (by split <;> omega)]
        exact hnext s false
      cases skip with
      | true => exact hgo
      | false =>
        simp only [Bool.false_eq_true, if_false]
        rw [hs s _ c hc, pure_bind]
        exact hgo
    · obtain ⟨hencode, hone⟩ := utf8EncodeChar_ascii (Nat.lt_of_not_le hc)
      rw [hone] at hnext ⊢
      cases skip with
      | true => exact hnext s false
      | false =>
        have hchar : Char.ofNat ((utf8Encode (before ++ c :: rest))[utf8Size before]).toNat = c := by
          simp only [hbytes, hencode]
          rw [List.getElem_append_right (Nat.le_of_eq (length_utf8Encode before))]
          simp only [length_utf8Encode, Nat.sub_self, List.cons_append, List.getElem_cons_zero]
          rw [UInt8.toNat_ofNat_of_lt' (show c.toNat < 256 by omega), Char.ofNat_toNat]
        rw [walk]
        simp only [Bool.false_eq_true, if_false, Nat.add_zero]
        rw [dif_pos hbefore, hchar]
        refine bind_congr fun r => ?_
        obtain ⟨s', skip⟩ := r
        have hr := hnext s' skip
        have hwidth : utf8Size before + (if skip then 2 else 1) < wordLimit := by
          split <;> omega
        have hoffset : utf8Size before + (if skip then 2 else 1) =
            utf8Size before + 1 + if skip then 1 else 0 := by
          split <;> omega
        simp only
        rw [if_pos hwidth, hoffset, hr]

end

/-! ## Scans of whole texts -/

section
variable {σ ρ : Type}

/-- A step of a scan may also answer for the whole of it. -/
abbrev ScanStep (σ ρ : Type) := σ → Nat → Char → Checked (Except (Except Error ρ)) (σ × Bool)

def answer {α : Type} (result : Except Error ρ) : Checked (Except (Except Error ρ)) α :=
  ExceptT.lift (.error result)

/-- What is answered early, or what is made of the state at the end. -/
def concluded (finish : σ → Checked (Except Error) ρ) (x : Checked (Except (Except Error ρ)) σ) :
    Checked (Except Error) ρ :=
  match x.run with
  | .error result => ExceptT.lift result
  | .ok (.error fault) => throw fault
  | .ok (.ok s) => finish s

/-- Scans the bytes of a text. -/
def scan (step : ScanStep σ ρ) (s : σ) (finish : σ → Checked (Except Error) ρ)
    (text : List Char) : Checked (Except Error) ρ :=
  concluded finish (walk step (utf8Encode text) 0 s)

theorem scan_eq {step : ScanStep σ ρ} (hs : Ascii step) (s : σ)
    (finish : σ → Checked (Except Error) ρ) {text : List Char}
    (hlimit : utf8Size text + 1 < wordLimit) :
    scan step s finish text = concluded finish (walkText step s false 0 text) := by
  have hwalk := walk_encode hs [] text hlimit s false
  simp only [Bool.false_eq_true, if_false, Nat.add_zero, List.nil_append, utf8Size_nil] at hwalk
  rw [scan, hwalk]

@[simp] theorem answer_bind {α β : Type} (result : Except Error ρ)
    (f : α → Checked (Except (Except Error ρ)) β) : answer result >>= f = answer result := rfl

@[simp] theorem concluded_answer (finish : σ → Checked (Except Error) ρ) (result : Except Error ρ) :
    concluded finish (answer result) = ExceptT.lift result := rfl

@[simp] theorem concluded_pure (finish : σ → Checked (Except Error) ρ) (s : σ) :
    concluded finish (pure s) = finish s := rfl

end
end TypeIdentity.Offsets
