import Mathlib.Data.List.TakeWhile
import TypeIdentity.PathCodec.Basic
import TypeIdentity.Proofs.Offsets.Slices
import TypeIdentity.Proofs.Text.Leads

/-! # Tokens decoded by offsets

The escapes of a token are found by the offsets of the underscores.  What stands before an escape is
copied, and decoding goes on behind it.
-/
namespace TypeIdentity.Offsets
open Text PathCodec

/-- The path that the text after the mark spells. -/
def decode (text : List Char) : Checked (Except TokenError) (List Char) := do
  match firstOffset? '_' text with
  | none => return text
  | some start =>
    let plain ← sliceTo text start
    let escape ← sliceBehind text start
    match firstOffset? '_' escape with
    | none => refuse (.unterminated (String.ofList (← sliceFrom text start)))
    | some stop =>
      let code ← sliceTo escape stop
      match escapedChar? code with
      | none => refuse (.unknownEscape (String.ofList code))
      | some c =>
        let rest ← sliceBehind escape stop
        if rest.length < text.length then return plain ++ c :: (← decode rest)
        else throw .notShorter
termination_by text.length

/-- The path of a token.  Text with a point or a slash is a path already, and so is an identifier
without the mark; a token may also be one that wrapping would not produce. -/
def unwrap (codec : PathCodec) (token : String) :
    Except Error (Except Fault String) × PathCodec :=
  if '.' ∈ token.toList ∨ '/' ∈ token.toList then (.ok (.ok token), codec)
  else match tokenMark.toList.isPrefixOf? token.toList with
    | none => (.ok (.ok token), codec)
    | some body =>
      match codec.paths[token]? with
      | some path => (.ok (.ok path), codec)
      | none =>
        match (decode body).run with
        | .error e => (.error (.malformed token (.badToken e)), codec)
        | .ok (.error fault) => (.ok (.error fault), codec)
        | .ok (.ok chars) =>
          let path := String.ofList chars
          (.ok (.ok path), { codec with paths := codec.paths.insert token path })

/-! ## What is decoded -/

theorem decode_plain {plain : List Char} (h : '_' ∉ plain) (rest : List Char) :
    PathCodec.decode (plain ++ rest) = (plain ++ ·) <$> PathCodec.decode rest := by
  induction plain with
  | nil => exact (id_map _).symm
  | cons c plain ih =>
    obtain ⟨hc, hplain⟩ := not_or.1 (mt List.mem_cons.2 h)
    rw [List.cons_append, PathCodec.decode, ih hplain]
    · cases PathCodec.decode rest <;> rfl
    · exact fun he => hc he.symm

theorem decode_unterminated {escape : List Char} (h : escape.dropWhile (· ≠ '_') = []) :
    PathCodec.decode ('_' :: escape) = .error (.unterminated (String.ofList ('_' :: escape))) := by
  rw [PathCodec.decode]
  split
  · rfl
  · next _ _ hcons =>
    rw [h] at hcons
    cases hcons

theorem decode_escape {escape rest : List Char} {mark : Char}
    (h : escape.dropWhile (· ≠ '_') = mark :: rest) :
    PathCodec.decode ('_' :: escape) =
      match escapedChar? (escape.takeWhile (· ≠ '_')) with
      | none => .error (.unknownEscape (String.ofList (escape.takeWhile (· ≠ '_'))))
      | some c => (c :: ·) <$> PathCodec.decode rest := by
  rw [PathCodec.decode]
  split
  · next hnil =>
    rw [h] at hnil
    cases hnil
  · next _ _ hcons =>
    rw [h] at hcons
    obtain ⟨rfl, rfl⟩ := List.cons.inj hcons
    rfl

/-- Decoding by offsets reads what decoding characters reads, and runs into no fault. -/
theorem decode_eq {text : List Char} (hlimit : utf8Size text < sizeLimit) :
    decode text = ExceptT.lift (PathCodec.decode text) := by
  induction hn : text.length using Nat.strongRecOn generalizing text with
  | ind n ih =>
  have hplain : '_' ∉ text.takeWhile (· ≠ '_') := by
    intro hm
    simpa using List.mem_takeWhile_imp hm
  have htext : text = text.takeWhile (· ≠ '_') ++ text.dropWhile (· ≠ '_') :=
    List.takeWhile_append_dropWhile.symm
  rw [decode, firstOffset?_eq]
  generalize text.takeWhile (· ≠ '_') = plain at *
  rcases dropWhile_ne '_' text with htail | ⟨escape, htail⟩
  · rw [htail] at htext
    rw [if_pos htail, htext, decode_plain hplain, PathCodec.decode]
    rfl
  rw [htail] at htext
  rw [if_neg (by rw [htail]; exact List.cons_ne_nil _ _)]
  have hescape : utf8Size escape < sizeLimit := by
    refine sizeLimit_of_isInfix ⟨plain ++ ['_'], [], ?_⟩ hlimit
    rw [htext]
    simp
  simp only [sliceTo_eq htext rfl, sliceFrom_eq htext rfl, sliceBehind_eq hlimit rfl htext rfl,
    pure_bind, firstOffset?_eq '_' escape]
  have hdecode : PathCodec.decode text = (plain ++ ·) <$> PathCodec.decode ('_' :: escape) := by
    rw [htext]
    exact decode_plain hplain _
  have hcode : escape = escape.takeWhile (· ≠ '_') ++ escape.dropWhile (· ≠ '_') :=
    List.takeWhile_append_dropWhile.symm
  rcases dropWhile_ne '_' escape with hclose | ⟨rest, hclose⟩
  · rw [if_pos hclose, hdecode, decode_unterminated hclose]
    rfl
  rw [if_neg (by rw [hclose]; exact List.cons_ne_nil _ _), hdecode, decode_escape hclose]
  rw [hclose] at hcode
  generalize escape.takeWhile (· ≠ '_') = code at *
  simp only [sliceTo_eq hcode rfl, pure_bind]
  cases escapedChar? code with
  | none => rfl
  | some c =>
    have hshorter : rest.length < text.length := by
      rw [htext, hcode]
      simp only [List.length_append, List.length_cons]
      omega
    have hrest : utf8Size rest < sizeLimit := by
      refine sizeLimit_of_isInfix ⟨code ++ ['_'], [], ?_⟩ hescape
      rw [hcode]
      simp
    have hnext := ih rest.length (hn ▸ hshorter) hrest rfl
    simp only [sliceBehind_eq hescape rfl hcode rfl, pure_bind, if_pos hshorter, hnext]
    cases PathCodec.decode rest <;> rfl

/-- Unwrapping as if no fault could cut it off. -/
theorem unwrap_eq (codec : PathCodec) {token : String} (hlimit : utf8Size token.toList < sizeLimit) :
    unwrap codec token = (Except.ok <$> (codec.unwrap token).1, (codec.unwrap token).2) := by
  rw [unwrap, PathCodec.unwrap]
  split
  · rfl
  cases hbody : tokenMark.toList.isPrefixOf? token.toList with
  | none => rfl
  | some body =>
    have hsuffix : body <:+: token.toList :=
      ⟨tokenMark.toList, [], by rw [List.append_nil, eq_append_of_isPrefixOf? hbody]⟩
    simp only [decode_eq (sizeLimit_of_isInfix hsuffix hlimit)]
    cases codec.paths[token]? with
    | some path => rfl
    | none => cases PathCodec.decode body <;> rfl

end TypeIdentity.Offsets
