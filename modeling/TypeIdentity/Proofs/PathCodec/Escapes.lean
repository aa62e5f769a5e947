import TypeIdentity.Proofs.PathCodec.Inverse
import TypeIdentity.Proofs.PathCodec.Answers

/-! # Which tokens are read

A token is read exactly when the text after the mark is made of characters other than underscores
and of escapes.  The number of an escape is written in hexadecimal digits; reading also takes a plus
sign before them, which no token of a path has.
-/
namespace TypeIdentity.PathCodec
open Text

/-! ## Hexadecimal numbers -/

/-- The hexadecimal digits in the order of their values. -/
def hexDigits : List Char := "0123456789abcdef".toList

/-- A hexadecimal digit, in either case. -/
def IsHexDigit (c : Char) : Prop := c.toLower ∈ hexDigits

instance (c : Char) : Decidable (IsHexDigit c) := inferInstanceAs (Decidable (_ ∈ _))

/-- The number that hexadecimal digits denote after `n` has been read. -/
def hexValueFrom (n : Nat) (digits : List Char) : Nat :=
  digits.foldl (fun value c => value * 16 + hexDigits.idxOf c.toLower) n

/-- The number that hexadecimal digits denote. -/
def hexValue (digits : List Char) : Nat := hexValueFrom 0 digits

theorem digitValue?_hex (c : Char) :
    digitValue? 16 c = if IsHexDigit c then some (hexDigits.idxOf c.toLower) else none := by
  by_cases hc : c.toNat < 128
  · have hall : ∀ n < 128, digitValue? 16 (Char.ofNat n) =
        if IsHexDigit (Char.ofNat n) then some (hexDigits.idxOf (Char.ofNat n).toLower)
        else none := by decide +kernel
    have hchar := hall c.toNat hc
    rwa [Char.ofNat_toNat] at hchar
  · have hbeyond (d : Char) (hd : d.val.toNat < 128) : ¬c.val ≤ d.val := by
      have hval : 128 ≤ c.val.toNat := not_lt.1 hc
      rw [UInt32.le_iff_toNat_le]
      omega
    have hdigit : ¬c.isDigit := fun h =>
      hbeyond '9' (by decide) (of_decide_eq_true (Bool.and_eq_true_iff.1 h).2)
    have hlower : ¬c.isLower := fun h =>
      hbeyond 'z' (by decide) (of_decide_eq_true (Bool.and_eq_true_iff.1 h).2)
    have hupper : ¬c.isUpper := fun h =>
      hbeyond 'Z' (by decide) (of_decide_eq_true h).2
    have hsame : c.toLower = c := dif_neg fun h => hbeyond 'Z' (by decide) h.2
    have hnone : ¬IsHexDigit c := by
      intro h
      rw [IsHexDigit, hsame] at h
      have hsmall : ∀ d ∈ hexDigits, d.toNat < 128 := List.all_iff_forall_prop.1 (by decide)
      exact hc (hsmall c h)
    simp [digitValue?, hdigit, hlower, hupper, hnone]

theorem le_hexValueFrom (n : Nat) (digits : List Char) : n ≤ hexValueFrom n digits := by
  induction digits generalizing n with
  | nil => exact le_rfl
  | cons c digits ih =>
    have hstep := ih (n * 16 + hexDigits.idxOf c.toLower)
    refine le_trans ?_ hstep
    omega

/-- Reading digits succeeds on hexadecimal digits only, with the number below the bound. -/
theorem readDigits_eq_ok_iff {bound acc n : Nat} {digits : List Char} (hacc : acc < bound) :
    readDigits 16 bound acc digits = .ok n ↔
      (∀ c ∈ digits, IsHexDigit c) ∧ hexValueFrom acc digits = n ∧ n < bound := by
  induction digits generalizing acc with
  | nil =>
    constructor
    · intro h
      obtain rfl : acc = n := by simpa [readDigits] using h
      exact ⟨by simp, rfl, hacc⟩
    · rintro ⟨-, rfl, -⟩
      rfl
  | cons c digits ih =>
    rw [readDigits, digitValue?_hex, List.forall_mem_cons]
    by_cases hc : IsHexDigit c
    · rw [if_pos hc]
      simp only
      split
      · next hlt =>
        rw [ih hlt]
        simp only [hc, true_and]
        rfl
      · next hge =>
        constructor
        · intro h
          cases h
        · rintro ⟨-, hn, hlt⟩
          have hle := le_hexValueFrom (acc * 16 + hexDigits.idxOf c.toLower) digits
          have hvalue : hexValueFrom (acc * 16 + hexDigits.idxOf c.toLower) digits = n := hn
          omega
    · rw [if_neg hc]
      constructor
      · intro h
        cases h
      · rintro ⟨⟨h, -⟩, -⟩
        exact absurd h hc

/-! ## Escapes -/

/-- What the text between two underscores stands for. -/
inductive StandsFor : List Char → Char → Prop
  | underscore : StandsFor ['u'] '_'
  | point : StandsFor ['d'] '.'
  | slash : StandsFor ['s'] '/'
  | number {digits : List Char} {c : Char} (hne : digits ≠ [])
      (hdigits : ∀ d ∈ digits, IsHexDigit d) (hvalue : hexValue digits = c.toNat) :
      StandsFor ('x' :: digits) c

/-- What the text between two underscores is read as: the number may have a plus sign. -/
inductive ReadAs : List Char → Char → Prop
  | exact {code : List Char} {c : Char} (h : StandsFor code c) : ReadAs code c
  | signed {digits : List Char} {c : Char} (h : StandsFor ('x' :: digits) c) :
      ReadAs ('x' :: '+' :: digits) c

theorem not_isHexDigit_plus : ¬IsHexDigit '+' := by decide

theorem toNat_ofNat_of_isValidChar {n : Nat} (h : n.isValidChar) : (Char.ofNat n).toNat = n := by
  rw [Char.ofNat, dif_pos h]
  rfl

/-- A numeral is digits, or a plus sign and digits. -/
theorem exists_readDigits {text : List Char} {n : Nat}
    (h : readNumeral 16 UInt32.size text = .ok n) :
    ∃ digits, digits ≠ [] ∧ (text = digits ∨ text = '+' :: digits) ∧
      readDigits 16 UInt32.size 0 digits = .ok n := by
  unfold readNumeral at h
  split at h
  · cases h
  · cases h
  · next rest hrest => exact ⟨rest, fun he => hrest (by rw [he]), .inr rfl, h⟩
  · next hne _ _ => exact ⟨text, hne, .inl rfl, h⟩

theorem readNumeral_of_standsFor {digits : List Char} {c : Char} (h : StandsFor ('x' :: digits) c) :
    readNumeral 16 UInt32.size digits = .ok c.toNat ∧
      readNumeral 16 UInt32.size ('+' :: digits) = .ok c.toNat := by
  cases h with
  | number hne hdigits hvalue =>
    have hread : readDigits 16 UInt32.size 0 digits = .ok c.toNat :=
      (readDigits_eq_ok_iff (by decide)).2 ⟨hdigits, hvalue, c.val.toNat_lt⟩
    obtain ⟨d, rest, rfl⟩ := List.exists_cons_of_ne_nil hne
    have hplus : d ≠ '+' := by
      rintro rfl
      exact not_isHexDigit_plus (hdigits '+' (List.mem_cons_self ..))
    constructor
    · rw [readNumeral, hread]
      · exact List.cons_ne_nil d rest
      · simp [hplus]
      · simp [hplus]
    · rw [readNumeral, hread]
      exact List.cons_ne_nil d rest

theorem escapedChar?_of_readAs {code : List Char} {c : Char} (h : ReadAs code c) :
    escapedChar? code = some c := by
  have hvalid : c.toNat.isValidChar := c.valid
  cases h with
  | exact h =>
    cases h with
    | underscore | point | slash => rfl
    | number hne hdigits hvalue =>
      have hread := (readNumeral_of_standsFor (.number hne hdigits hvalue)).1
      rw [escapedChar?]
      simp only [hread, if_pos hvalid, Char.ofNat_toNat]
  | signed h =>
    rw [escapedChar?]
    simp only [(readNumeral_of_standsFor h).2, if_pos hvalid, Char.ofNat_toNat]

theorem readAs_of_escapedChar? {code : List Char} {c : Char} (h : escapedChar? code = some c) :
    ReadAs code c := by
  fun_cases escapedChar? code with
  | case1 => exact .exact (Option.some.inj h ▸ .underscore)
  | case2 => exact .exact (Option.some.inj h ▸ .point)
  | case3 => exact .exact (Option.some.inj h ▸ .slash)
  | case4 text n hn hvalid =>
    obtain ⟨digits, hne, htext, hread⟩ := exists_readDigits hn
    obtain ⟨hdigits, hvalue, -⟩ := (readDigits_eq_ok_iff (by decide)).1 hread
    obtain rfl : Char.ofNat n = c := by simpa [escapedChar?, hn, hvalid] using h
    have hnumber : StandsFor ('x' :: digits) (Char.ofNat n) :=
      .number hne hdigits (hvalue.trans (toNat_ofNat_of_isValidChar hvalid).symm)
    rcases htext with rfl | rfl
    · exact .exact hnumber
    · exact .signed hnumber
  | case5 text n hn hvalid => simp [escapedChar?, hn, hvalid] at h
  | case6 text e hn => simp [escapedChar?, hn] at h
  | case7 => simp [escapedChar?] at h

/-! ## Tokens -/

/-- Characters other than underscores, which stand for themselves, and escapes, with what the text
between two underscores stands for. -/
inductive Spells (standsFor : List Char → Char → Prop) : List Char → List Char → Prop
  | nil : Spells standsFor [] []
  | char {c : Char} {rest chars : List Char} (hc : c ≠ '_') (h : Spells standsFor rest chars) :
      Spells standsFor (c :: rest) (c :: chars)
  | escape (code : List Char) {c : Char} {rest chars : List Char} (hc : standsFor code c)
      (h : Spells standsFor rest chars) :
      Spells standsFor ('_' :: (code ++ '_' :: rest)) (c :: chars)

theorem underscore_not_mem_of_readAs {code : List Char} {c : Char} (h : ReadAs code c) :
    '_' ∉ code := by
  have hdigit {ds : List Char} (hd : StandsFor ('x' :: ds) c) : '_' ∉ ds := by
    cases hd with
    | number hne hdigits hvalue => exact fun hm => absurd (hdigits '_' hm) (by decide)
  cases h with
  | exact h =>
    cases h with
    | underscore | point | slash => decide
    | number hne hdigits hvalue => simpa using hdigit (.number hne hdigits hvalue)
  | signed h => simpa using hdigit h

theorem decode_of_spells {text chars : List Char} (h : Spells ReadAs text chars) :
    decode text = .ok chars := by
  induction h with
  | nil => rw [decode]
  | @char c rest chars hc _ ih =>
    rw [decode, ih]
    · rfl
    · exact hc
  | @escape code c rest chars hc _ ih =>
    rw [decode_code (escapedChar?_of_readAs hc) (underscore_not_mem_of_readAs hc), ih]
    rfl

theorem spells_of_decode {text chars : List Char} (h : decode text = .ok chars) :
    Spells ReadAs text chars := by
  fun_induction decode text generalizing chars with
  | case1 =>
    obtain rfl := Except.ok.inj h
    exact .nil
  | case2 | case3 => cases h
  | case4 rest code mark after hdrop c hc =>
    rename_i ih
    obtain ⟨tail, htail, rfl⟩ := exists_of_decode_cons h
    have hmark : mark = '_' := by
      have hhead := List.head?_dropWhile_not (· ≠ '_') rest
      rw [hdrop] at hhead
      simpa using hhead
    have hrest : rest = code ++ '_' :: after := by
      rw [← hmark, ← hdrop]
      exact List.takeWhile_append_dropWhile.symm
    rw [hrest]
    exact .escape code (readAs_of_escapedChar? hc) (ih htail)
  | case5 c rest hc ih =>
    obtain ⟨tail, htail, rfl⟩ := exists_of_decode_cons h
    exact .char hc (ih htail)

/-! ## Without plus signs -/

theorem Spells.mono {standsFor readAs : List Char → Char → Prop}
    (hm : ∀ code c, standsFor code c → readAs code c) {text chars : List Char}
    (h : Spells standsFor text chars) : Spells readAs text chars := by
  induction h with
  | nil => exact .nil
  | char hc _ ih => exact .char hc ih
  | escape code hc _ ih => exact .escape code (hm _ _ hc) ih

/-- Only a plus sign at the head of a number is read and stands for nothing. -/
theorem spells_unsigned {text chars : List Char} (h : Spells ReadAs text chars)
    (hplus : ¬['_', 'x', '+'] <:+: text) : Spells StandsFor text chars := by
  induction h with
  | nil => exact .nil
  | @char c rest _ hc _ ih =>
    exact .char hc (ih fun hi => hplus (hi.trans (List.suffix_cons c rest).isInfix))
  | @escape code c rest _ hc _ ih =>
    have hrest : rest <:+: '_' :: (code ++ '_' :: rest) := ⟨'_' :: (code ++ ['_']), [], by simp⟩
    have hlater := ih fun hi => hplus (hi.trans hrest)
    cases hc with
    | exact hc => exact .escape code hc hlater
    | @signed digits _ hc =>
      have hhead : ['_', 'x', '+'] <:+: '_' :: ('x' :: '+' :: digits ++ '_' :: rest) :=
        ⟨[], digits ++ '_' :: rest, by simp⟩
      exact absurd hhead hplus

/-! ## Any codec -/

/-- What is remembered of a token with the mark changes nothing: its body is decoded. -/
theorem unwrap_eq_decode (calls : List Call) {token : String} {body : List Char}
    (htoken : token.toList = tokenMark.toList ++ body)
    (hpath : '.' ∉ token.toList ∧ '/' ∉ token.toList) :
    ((reached calls).unwrap token).1 =
      match decode body with
      | .ok chars => .ok (String.ofList chars)
      | .error e => .error (.malformed token (.badToken e)) := by
  have hplain : ¬('.' ∈ token.toList ∨ '/' ∈ token.toList) := by simpa using hpath
  have hmark : tokenMark.toList.isPrefixOf? token.toList = some body := by
    rw [htoken]
    exact Text.isPrefixOf?_append ..
  have hnone : empty.paths[token]? = none := by simp [empty]
  rw [(sound_reached calls).unwrap_eq, PathCodec.unwrap, if_neg hplain, hmark]
  simp only [hnone]
  cases decode body <;> rfl

/-- A token with the mark and without point and slash, whatever the codec was asked before: it is
unwrapped to a path exactly when the text after the mark spells the path, with or without plus
signs before numbers, and is malformed otherwise; where no number has a plus sign, these are the
paths spelled in the escapes that tokens have. -/
theorem unwrap_token (calls : List Call) {token : String} {body : List Char}
    (htoken : token.toList = tokenMark.toList ++ body)
    (hpath : '.' ∉ token.toList ∧ '/' ∉ token.toList) :
    (∀ path, ((reached calls).unwrap token).1 = .ok path ↔ Spells ReadAs body path.toList) ∧
      (¬['_', 'x', '+'] <:+: body →
        ∀ path, ((reached calls).unwrap token).1 = .ok path ↔
          Spells StandsFor body path.toList) ∧
      ((∃ path, ((reached calls).unwrap token).1 = .ok path) ∨
        ∃ e, ((reached calls).unwrap token).1 = .error (.malformed token (.badToken e))) := by
  have hread (path : String) :
      ((reached calls).unwrap token).1 = .ok path ↔ Spells ReadAs body path.toList := by
    rw [unwrap_eq_decode calls htoken hpath]
    constructor
    · intro h
      split at h
      · next chars hchars =>
        obtain rfl := Except.ok.inj h
        rw [String.toList_ofList]
        exact spells_of_decode hchars
      · cases h
    · intro h
      simp only [decode_of_spells h, String.ofList_toList]
  refine ⟨hread, ?_, ?_⟩
  · intro hplus path
    rw [hread]
    exact ⟨fun h => spells_unsigned h hplus, Spells.mono fun _ _ hc => .exact hc⟩
  · rw [unwrap_eq_decode calls htoken hpath]
    cases decode body with
    | ok chars => exact .inl ⟨_, rfl⟩
    | error e => exact .inr ⟨e, rfl⟩

/-- Escapes of every kind in a codec that has been used, with a capital digit. -/
theorem unwrap_token_escapes :
    ((reached [.wrap "a/b", .unwrap "xwrap_a_s_b"]).unwrap "xwrap_a_s_b_u__x2D_é").1 =
      .ok "a/b_-é" := by
  have hdash : StandsFor ['x', '2', 'D'] '-' :=
    .number (List.cons_ne_nil '2' ['D']) (List.all_iff_forall_prop.1 (by decide)) (by decide)
  have hspells : Spells StandsFor
      ['a', '_', 's', '_', 'b', '_', 'u', '_', '_', 'x', '2', 'D', '_', 'é']
      ['a', '/', 'b', '_', '-', 'é'] := by
    refine .char (by decide) (.escape ['s'] .slash (.char (by decide) ?_))
    exact .escape ['u'] .underscore (.escape ['x', '2', 'D'] hdash (.char (by decide) .nil))
  exact ((unwrap_token _ rfl (by decide)).2.1 (by decide) "a/b_-é").2 hspells

/-- A plus sign before a number is read, though no text with it is spelled in escapes. -/
theorem unwrap_signed_number :
    ((reached []).unwrap "xwrap__x+41_").1 = .ok "A" ∧
      ∀ path, ¬Spells StandsFor ['_', 'x', '+', '4', '1', '_'] path := by
  have hletter : StandsFor ['x', '4', '1'] 'A' :=
    .number (List.cons_ne_nil '4' ['1']) (List.all_iff_forall_prop.1 (by decide)) (by decide)
  have hspells : Spells ReadAs ['_', 'x', '+', '4', '1', '_'] ['A'] :=
    .escape ['x', '+', '4', '1'] (.signed hletter) .nil
  have htoken : "xwrap__x+41_".toList = tokenMark.toList ++ ['_', 'x', '+', '4', '1', '_'] := rfl
  refine ⟨?_, fun path h => ?_⟩
  · rw [unwrap_eq_decode [] htoken (by decide), decode_of_spells hspells]
  · generalize htext : ['_', 'x', '+', '4', '1', '_'] = text at h
    cases h with
    | nil => cases htext
    | char hc => exact hc (List.cons.inj htext).1.symm
    | escape code hc =>
      cases hc with
      | underscore | point | slash => simp at htext
      | @number digits _ hne hdigits =>
        obtain ⟨d, rest, rfl⟩ := List.exists_cons_of_ne_nil hne
        obtain ⟨rfl, -⟩ : '+' = d ∧ _ := by simpa using htext
        exact not_isHexDigit_plus (hdigits '+' (List.mem_cons_self ..))

end TypeIdentity.PathCodec
