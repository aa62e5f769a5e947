import Mathlib.Data.Finset.Card
import Mathlib.Data.List.Induction
import Std.Data.HashMap.Lemmas
import TypeIdentity.Proofs.PathCodec.States

/-! # Answers of a codec

What a codec remembers shows in none of its answers: each is what an empty codec answers to the
same call.  The size is the one trace of the past, and it counts the paths that needed tokens.
-/
namespace TypeIdentity.PathCodec

/-- What a call answers. -/
inductive Answer
  | token (token : String)
  | path (result : Except Error String)
  | cleared

/-- The answer to one call. -/
def answer (codec : PathCodec) : Call → Answer
  | .wrap path => .token (codec.wrap path).1
  | .unwrap token => .path (codec.unwrap token).1
  | .clear => .cleared

/-- The answers to a sequence of calls, each asked of the codec that the ones before left. -/
def answers (codec : PathCodec) : List Call → List Answer
  | [] => []
  | call :: calls => codec.answer call :: (codec.after call).answers calls

/-- Only tokens stand for paths that are neither empty nor identifiers. -/
def NeedsToken (path : String) : Prop := path ≠ "" ∧ isIdentifier path.toList = false

instance (path : String) : Decidable (NeedsToken path) := inferInstanceAs (Decidable (_ ∧ _))

/-- The path for which a call asks for a token. -/
def Call.tokenPath? : Call → Option String
  | .wrap path => if NeedsToken path then some path else none
  | _ => none

/-- The paths that needed tokens since nothing was remembered, the last one first. -/
def tokenPaths (calls : List Call) : List String :=
  (calls.reverse.takeWhile (· ≠ .clear)).filterMap Call.tokenPath?

variable {codec : PathCodec} {path token : String}

/-! ## Answers -/

/-- What is remembered of a token is what decoding it yields. -/
theorem Sound.unwrap_eq (h : codec.Sound) (token : String) :
    (codec.unwrap token).1 = (empty.unwrap token).1 := by
  rw [PathCodec.unwrap, PathCodec.unwrap]
  split
  · rfl
  split
  · rfl
  next body hb =>
  have hempty : (empty.paths)[token]? = none := by simp [empty]
  rw [hempty]
  cases hk : codec.paths[token]? with
  | none => cases decode body <;> rfl
  | some known => simp only [h.paths token known hk body hb, String.ofList_toList]

theorem Sound.answer_eq (h : codec.Sound) : ∀ call, codec.answer call = empty.answer call
  | .wrap path => by rw [answer, answer, (h.wrap path).1, (sound_empty.wrap path).1]
  | .unwrap token => by rw [answer, answer, h.unwrap_eq]
  | .clear => rfl

theorem Sound.answers_eq (h : codec.Sound) (calls : List Call) :
    codec.answers calls = calls.map empty.answer := by
  induction calls generalizing codec with
  | nil => rfl
  | cons call calls ih => rw [answers, List.map_cons, h.answer_eq, ih (h.after call)]

/-! ## Size -/

theorem tokens_unwrap (codec : PathCodec) (token : String) :
    (codec.unwrap token).2.tokens = codec.tokens := by
  rw [PathCodec.unwrap]
  split
  · rfl
  split
  · rfl
  split
  · rfl
  split <;> rfl

theorem mem_tokens_wrap (codec : PathCodec) (path other : String) :
    other ∈ (codec.wrap path).2.tokens ↔
      Call.tokenPath? (.wrap path) = some other ∨ other ∈ codec.tokens := by
  rw [PathCodec.wrap, Call.tokenPath?]
  split
  · next hplain =>
    have hneed : ¬NeedsToken path := fun hn => hplain.elim hn.1 (by simp [hn.2])
    simp [hneed]
  · next hplain =>
    have hneed : NeedsToken path := by simpa [NeedsToken] using hplain
    rw [if_pos hneed]
    split
    · next known hk =>
      have hmem : path ∈ codec.tokens := Std.HashMap.mem_iff_isSome_getElem?.2 (by simp [hk])
      simp only [Option.some.injEq]
      constructor
      · exact .inr
      · rintro (rfl | hm)
        · exact hmem
        · exact hm
    · simp

theorem reached_append (calls : List Call) (call : Call) :
    reached (calls ++ [call]) = (reached calls).after call := List.foldl_concat ..

theorem tokenPaths_append (calls : List Call) {call : Call} (h : call ≠ .clear) :
    tokenPaths (calls ++ [call]) = call.tokenPath?.toList ++ tokenPaths calls := by
  rw [tokenPaths, List.reverse_concat, List.takeWhile_cons_of_pos (by simpa using h),
    List.filterMap_cons]
  cases call.tokenPath? <;> rfl

/-- Tokens are remembered for the paths that needed one since the last clearing. -/
theorem mem_tokens_reached (calls : List Call) (path : String) :
    path ∈ (reached calls).tokens ↔ path ∈ tokenPaths calls := by
  induction calls using List.reverseRecOn with
  | nil => simp [reached, tokenPaths, empty]
  | append_singleton calls call ih =>
    rw [reached_append]
    cases call with
    | wrap other =>
      rw [after, mem_tokens_wrap, tokenPaths_append _ (by simp), List.mem_append, ih,
        Option.mem_toList]
    | unwrap token =>
      rw [after, tokens_unwrap, tokenPaths_append _ (by simp), ih]
      rfl
    | clear => simp [after, tokenPaths, empty]

theorem size_reached (calls : List Call) :
    (reached calls).size = (tokenPaths calls).toFinset.card := by
  have hkeys : (reached calls).tokens.keys.toFinset = (tokenPaths calls).toFinset := by
    ext path
    rw [List.mem_toFinset, List.mem_toFinset, Std.HashMap.mem_keys, mem_tokens_reached]
  rw [size, ← Std.HashMap.length_keys, ← hkeys,
    List.toFinset_card_of_nodup Std.HashMap.nodup_keys]

/-! ## What the past cannot change -/

/-- A codec answers every call as an empty one does, whatever the calls before, and its size is the
number of paths that have needed a token since it was cleared.  So no token that was unwrapped, not
even one that is not the token of its path, changes what wrapping answers. -/
theorem memory_invisible (calls : List Call) :
    empty.answers calls = calls.map empty.answer ∧
      (∀ call, (reached calls).answer call = empty.answer call) ∧
      (reached calls).size = (tokenPaths calls).toFinset.card ∧
      ∀ token path, (((reached calls).unwrap token).2.wrap path).1 = (empty.wrap path).1 := by
  have hsound := sound_reached calls
  refine ⟨sound_empty.answers_eq calls, hsound.answer_eq, size_reached calls, ?_⟩
  intro token path
  rw [((hsound.unwrap token).wrap path).1, (sound_empty.wrap path).1]

end TypeIdentity.PathCodec
