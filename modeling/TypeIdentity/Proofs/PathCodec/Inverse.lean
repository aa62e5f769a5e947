import TypeIdentity.Proofs.PathCodec.States

/-! # Unwrapping as the inverse of wrapping

The paths that unwrapping cannot give back are the identifiers with the mark: they stand for
themselves when wrapped, and a path decoded from one is shorter than it.
-/
namespace TypeIdentity.PathCodec

variable {codec : PathCodec} {path : String}

/-! ## Identifiers with the mark -/

theorem exists_of_decode_cons {c : Char} {rest chars : List Char}
    (h : (c :: ·) <$> decode rest = .ok chars) :
    ∃ tail, decode rest = .ok tail ∧ chars = c :: tail := by
  cases hr : decode rest with
  | error e => rw [hr] at h; cases h
  | ok tail => rw [hr] at h; exact ⟨tail, rfl, (Except.ok.inj h).symm⟩

theorem length_le_of_decode {text chars : List Char} (h : decode text = .ok chars) :
    chars.length ≤ text.length := by
  fun_induction decode text generalizing chars with
  | case1 => cases h; exact le_rfl
  | case2 | case3 => cases h
  | case4 rest code mark after hdrop c _ =>
    rename_i ih
    obtain ⟨tail, ht, rfl⟩ := exists_of_decode_cons h
    have hshort : (mark :: after).length ≤ rest.length :=
      hdrop ▸ (List.dropWhile_sublist _).length_le
    have htail := ih ht
    simp only [List.length_cons] at hshort ⊢
    omega
  | case5 c rest _ ih =>
    obtain ⟨tail, ht, rfl⟩ := exists_of_decode_cons h
    exact Nat.succ_le_succ (ih ht)

/-- An identifier with the mark is never the path that it is decoded to. -/
theorem Sound.unwrap_ne (h : codec.Sound) (ht : TakenForToken path) :
    (codec.unwrap path).1 ≠ .ok path := by
  obtain ⟨hid, body, hbody⟩ := ht
  have hrest := Text.isIdentRest_of_isIdentifier hid
  have hplain : ¬('.' ∈ path.toList ∨ '/' ∈ path.toList) := by
    rintro (hm | hm)
    · exact absurd (hrest '.' hm) (by decide)
    · exact absurd (hrest '/' hm) (by decide)
  have hmark : tokenMark.toList.isPrefixOf? path.toList = some body := by
    rw [← hbody]
    exact Text.isPrefixOf?_append ..
  have hshorter : body.length < path.toList.length := by
    have hpos : 0 < tokenMark.toList.length := by decide
    rw [← hbody, List.length_append]
    omega
  have hdecode : decode body ≠ .ok path.toList := fun hd =>
    absurd (length_le_of_decode hd) (not_le.2 hshorter)
  intro hu
  rw [PathCodec.unwrap, if_neg hplain] at hu
  simp only [hmark] at hu
  split at hu
  · next known hk =>
    obtain rfl := Except.ok.inj hu
    exact hdecode (h.paths _ _ hk _ hmark)
  · split at hu
    · cases hu
    · next chars hchars =>
      have hpath : path.toList = chars := by
        rw [← Except.ok.inj hu, String.toList_ofList]
      exact hdecode (hpath ▸ hchars)

/-! ## Spelled paths -/

theorem spelled_spelled (path : String) : spelled (spelled path) = spelled path := by
  by_cases h : path = ""
  · subst h
    rfl
  · exact if_pos (.inr (isIdentifier_spelled h))

theorem unwrap_empty (codec : PathCodec) : (codec.unwrap "").1 = .ok "" := by
  rw [unwrap_of_not_mark (by decide)]

/-- What a path is spelled as is unwrapped to the path itself, except for the identifiers that look
like tokens. -/
theorem Sound.unwrap_spelled_iff (h : codec.Sound) (path : String) :
    (codec.unwrap (spelled path)).1 = .ok path ↔ ¬TakenForToken path := by
  constructor
  · intro hu ht
    have hs : spelled path = path := if_pos (.inr ht.1)
    rw [hs] at hu
    exact h.unwrap_ne ht hu
  · intro ht
    by_cases hp : path = ""
    · subst hp
      exact unwrap_empty codec
    · exact h.unwrap_spelled hp ht

/-! ## Any codec -/

/-- Whatever a codec was asked for before: unwrapping takes back what wrapping a path gave, also
after any further calls, exactly for the paths that are not identifiers with the mark; wrapping
yields an identifier for every path that is not empty; wrapping its answer again changes nothing;
and no two paths that unwrapping gives back have one token, not even in different codecs. -/
theorem wrap_invertible (calls : List Call) (path : String) :
    (∀ later : List Call,
      ((later.foldl after ((reached calls).wrap path).2).unwrap ((reached calls).wrap path).1).1 =
        .ok path ↔ ¬TakenForToken path) ∧
      (path ≠ "" → isIdentifier ((reached calls).wrap path).1.toList = true) ∧
      (((reached calls).wrap path).2.wrap ((reached calls).wrap path).1).1 =
        ((reached calls).wrap path).1 ∧
      ∀ (others : List Call) (other : String), ¬TakenForToken path → ¬TakenForToken other →
        ((reached calls).wrap path).1 = ((reached others).wrap other).1 → path = other := by
  have hsound := sound_reached calls
  obtain ⟨htoken, hafter⟩ := hsound.wrap path
  rw [htoken]
  refine ⟨fun later => (hafter.foldl later).unwrap_spelled_iff path, isIdentifier_spelled, ?_, ?_⟩
  · rw [(hafter.wrap (spelled path)).1, spelled_spelled]
  · intro others other hpath hother heq
    rw [((sound_reached others).wrap other).1] at heq
    have hgiven := (hsound.unwrap_spelled_iff path).2 hpath
    rw [heq, (hsound.unwrap_spelled_iff other).2 hother] at hgiven
    exact (Except.ok.inj hgiven).symm

/-- Two paths that need tokens and look alike have different ones. -/
theorem wrap_invertible_similar :
    ((reached [.wrap "x/y", .clear]).wrap "x/y").1 ≠ ((reached []).wrap "x.y").1 ∧
      isIdentifier ((reached []).wrap "x/y").1.toList = true := by
  refine ⟨fun h => ?_, (wrap_invertible [] "x/y").2.1 (by decide)⟩
  have heq := (wrap_invertible [.wrap "x/y", .clear] "x/y").2.2.2 [] "x.y" (by decide) (by decide) h
  exact absurd heq (by decide)

end TypeIdentity.PathCodec
