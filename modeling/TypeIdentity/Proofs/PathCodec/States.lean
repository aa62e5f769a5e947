import TypeIdentity.PathCodec.Basic
import TypeIdentity.Proofs.PathCodec.Tokens
import TypeIdentity.Proofs.Text.Leads

/-! # Codecs in use

Whatever a codec has been asked for, it remembers right answers only: a path has the token that
encodes it, and a token has the path that it decodes to.  So wrapping does not depend on the past,
and unwrapping takes back what wrapping gave.
-/
namespace TypeIdentity.PathCodec

/-- What a codec can be asked for. -/
inductive Call
  | wrap (path : String)
  | unwrap (token : String)
  | clear
  deriving DecidableEq, Repr

/-- The codec after one call. -/
def after (codec : PathCodec) : Call → PathCodec
  | .wrap path => (codec.wrap path).2
  | .unwrap token => (codec.unwrap token).2
  | .clear => .empty

/-- The codec after a sequence of calls that began with nothing remembered. -/
def reached (calls : List Call) : PathCodec := calls.foldl after .empty

/-- What stands for a path in a wrapped text. -/
def spelled (path : String) : String :=
  if path = "" ∨ isIdentifier path.toList then path else String.ofList (encode path.toList)

/-- An identifier with the mark, which is taken for the token of another path. -/
def TakenForToken (path : String) : Prop :=
  isIdentifier path.toList = true ∧ tokenMark.toList <+: path.toList

instance (path : String) : Decidable (TakenForToken path) :=
  inferInstanceAs (Decidable (_ ∧ _))

/-- Everything that is remembered is what would be computed. -/
structure Sound (codec : PathCodec) : Prop where
  tokens : ∀ path token : String, codec.tokens[path]? = some token →
    token = String.ofList (encode path.toList)
  paths : ∀ token path : String, codec.paths[token]? = some path →
    ∀ body, tokenMark.toList.isPrefixOf? token.toList = some body → decode body = .ok path.toList

variable {codec : PathCodec} {path token : String}

theorem sound_empty : empty.Sound := by
  constructor <;> simp [empty]

/-! ## Spelled paths -/

theorem isIdentifier_spelled (h : path ≠ "") : isIdentifier (spelled path).toList = true := by
  rw [spelled]
  split
  · next hid => exact hid.resolve_left h
  · rw [String.toList_ofList]
    exact isIdentifier_encode _

theorem isPrefixOf?_encode (path : List Char) :
    tokenMark.toList.isPrefixOf? (encode path) = some (path.flatMap encodeChar) :=
  Text.isPrefixOf?_append ..

theorem isPrefixOf?_mark (h : ¬tokenMark.toList <+: token.toList) :
    tokenMark.toList.isPrefixOf? token.toList = none := by
  cases hp : tokenMark.toList.isPrefixOf? token.toList with
  | none => rfl
  | some body => exact absurd ⟨body, (Text.eq_append_of_isPrefixOf? hp).symm⟩ h

/-! ## One call -/

theorem Sound.wrap (h : codec.Sound) (path : String) :
    (codec.wrap path).1 = spelled path ∧ (codec.wrap path).2.Sound := by
  rw [PathCodec.wrap, spelled]
  split
  · exact ⟨rfl, h⟩
  split
  · next known hk => exact ⟨h.tokens path known hk, h⟩
  · refine ⟨rfl, ⟨?_, ?_⟩⟩
    · intro p t hp
      rw [Std.HashMap.getElem?_insert] at hp
      split at hp
      · next heq =>
        obtain rfl := Option.some.inj hp
        rw [beq_iff_eq.1 heq]
      · exact h.tokens p t hp
    · intro t p hp body hb
      rw [Std.HashMap.getElem?_insertIfNew] at hp
      split at hp
      · next heq =>
        obtain rfl := Option.some.inj hp
        rw [← beq_iff_eq.1 heq.1, String.toList_ofList, isPrefixOf?_encode] at hb
        rw [← Option.some.inj hb]
        exact decode_flatMap_encodeChar _
      · exact h.paths t p hp body hb

theorem Sound.unwrap (h : codec.Sound) (token : String) : (codec.unwrap token).2.Sound := by
  rw [PathCodec.unwrap]
  split
  · exact h
  split
  · exact h
  next body hb =>
  split
  · exact h
  split
  · exact h
  next chars hchars =>
  refine ⟨h.tokens, fun t p hp => ?_⟩
  rw [Std.HashMap.getElem?_insert] at hp
  split at hp
  · next heq =>
    obtain rfl := Option.some.inj hp
    obtain rfl := beq_iff_eq.1 heq
    intro b hb'
    obtain rfl := Option.some.inj (hb.symm.trans hb')
    rw [hchars, String.toList_ofList]
  · exact h.paths t p hp

theorem unwrap_of_not_mark (h : ¬tokenMark.toList <+: token.toList) (codec : PathCodec) :
    codec.unwrap token = (.ok token, codec) := by
  rw [PathCodec.unwrap]
  split
  · rfl
  · simp only [isPrefixOf?_mark h]

/-- Unwrapping takes back what wrapping gave, whatever the codec remembers. -/
theorem Sound.unwrap_spelled (h : codec.Sound) (hp : path ≠ "") (ht : ¬TakenForToken path) :
    (codec.unwrap (spelled path)).1 = .ok path := by
  by_cases hid : isIdentifier path.toList = true
  · have hs : spelled path = path := if_pos (.inr hid)
    rw [hs, unwrap_of_not_mark fun hm => ht ⟨hid, hm⟩]
  · have hs : spelled path = String.ofList (encode path.toList) := if_neg (by simp [hp, hid])
    have hrest := Text.isIdentRest_of_isIdentifier (isIdentifier_encode path.toList)
    have hplain : ¬('.' ∈ encode path.toList ∨ '/' ∈ encode path.toList) := by
      rintro (hm | hm)
      · exact absurd (hrest '.' hm) (by decide)
      · exact absurd (hrest '/' hm) (by decide)
    rw [hs, PathCodec.unwrap, String.toList_ofList, if_neg hplain]
    simp only [isPrefixOf?_encode]
    split
    · next known hk =>
      have hd := h.paths _ _ hk _ (by rw [String.toList_ofList]; exact isPrefixOf?_encode _)
      rw [decode_flatMap_encodeChar] at hd
      rw [String.toList_inj.1 (Except.ok.inj hd)]
    · simp only [decode_flatMap_encodeChar, String.ofList_toList]

/-! ## Any calls -/

theorem Sound.after (h : codec.Sound) : ∀ call, (codec.after call).Sound
  | .wrap path => (h.wrap path).2
  | .unwrap token => h.unwrap token
  | .clear => sound_empty

theorem Sound.foldl (h : codec.Sound) (calls : List Call) :
    (calls.foldl PathCodec.after codec).Sound := by
  induction calls generalizing codec with
  | nil => exact h
  | cons call calls ih => exact ih (h.after call)

theorem sound_reached (calls : List Call) : (reached calls).Sound := sound_empty.foldl calls

end TypeIdentity.PathCodec
