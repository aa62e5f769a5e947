import TypeIdentity.Proofs.Literal.Yields
import TypeIdentity.Proofs.Offsets.Levels

/-! # Checked readings follow readings

A checked reading follows a reading when it makes the same requests and ends in the same way, never
by a fault.  The texts it asks for are shorter than the id in bytes, and what it refuses is malformed
or of a category that has no place in a literal.
-/
namespace TypeIdentity

/-- What refuses an id: it is malformed, or denotes no type that a literal can be. -/
def Error.IsRejection : Error → Prop
  | malformed .. | unsupported .. => True
  | _ => False

namespace Offsets
open Text Scan Literal

variable {whole : List Char} {α β : Type}

inductive Follows (whole : List Char) :
    Checked (Reading whole.length) α → Reading whole.length α → Prop
  | done (a : α) : Follows whole (pure a) (.done a)
  | fail {e : Error} (h : e.IsRejection) : Follows whole (ExceptT.lift (.fail e)) (.fail e)
  | parse {text : List Char} (hsize : utf8Size text < utf8Size whole)
      (hlength : text.length < whole.length)
      {x : TypeLiteral → Checked (Reading whole.length) α}
      {y : TypeLiteral → Reading whole.length α} (hn : ∀ t, Follows whole (x t) (y t)) :
      Follows whole (Reading.parse text hlength x) (.parse text hlength y)
  | decodePath {token : String} (hsize : utf8Size token.toList ≤ utf8Size whole)
      {x : String → Checked (Reading whole.length) α} {y : String → Reading whole.length α}
      (hn : ∀ path, Follows whole (x path) (y path)) :
      Follows whole (Reading.decodePath token x) (.decodePath token y)
  | share (lit : TypeLiteral) {x : TypeLiteral → Checked (Reading whole.length) α}
      {y : TypeLiteral → Reading whole.length α} (hn : ∀ t, Follows whole (x t) (y t)) :
      Follows whole (Reading.share lit x) (.share lit y)

namespace Follows

theorem bind {x : Checked (Reading whole.length) α} {y : Reading whole.length α}
    {f : α → Checked (Reading whole.length) β} {g : α → Reading whole.length β}
    (hx : Follows whole x y) (hf : ∀ a, Follows whole (f a) (g a)) :
    Follows whole (x >>= f) (y >>= g) := by
  induction hx with
  | done a => exact hf a
  | fail h => exact fail h
  | parse hsize hlength _ ih => exact parse hsize hlength ih
  | decodePath hsize _ ih => exact decodePath hsize ih
  | share lit _ ih => exact share lit ih

theorem ask {text : List Char} (hsize : utf8Size text < utf8Size whole)
    (hlength : text.length < whole.length) :
    Follows whole (Offsets.ask whole text) (.sub text hlength) := by
  rw [Offsets.ask, dif_pos ⟨hsize, hlength⟩]
  exact parse hsize hlength done

theorem mapM {n : Nat} {ps : List (List Char)} {hp : ∀ p ∈ ps, p.length < n}
    {f : List Char → Checked (Reading whole.length) β} {g : Below n → Reading whole.length β}
    (h : ∀ p (hm : p ∈ ps), Follows whole (f p) (g ⟨p, hp p hm⟩)) :
    Follows whole (ps.mapM f) ((ps.attachWith (·.length < n) hp).mapM g) := by
  induction ps with
  | nil => exact done []
  | cons p ps ih =>
    rw [List.mapM_cons, List.attachWith_cons, List.mapM_cons]
    refine (h p (List.mem_cons_self ..)).bind fun b => ?_
    refine (ih fun q hm => h q (List.mem_cons_of_mem _ hm)).bind fun bs => ?_
    exact done (b :: bs)

theorem ite {c : Prop} [Decidable c] {x x' : Checked (Reading whole.length) α}
    {y y' : Reading whole.length α} (hpos : Follows whole x y) (hneg : Follows whole x' y') :
    Follows whole (if c then x else x') (if c then y else y') := by
  split
  · exact hpos
  · exact hneg

/-- Nothing may be left behind a span. -/
theorem ends {after : List Char} {x x' : Checked (Reading whole.length) α}
    {y y' : Reading whole.length α} (hend : Follows whole x y) (hrest : Follows whole x' y') :
    Follows whole (if decide (after = []) = true then x else x') (if after ≠ [] then y' else y) := by
  by_cases h : after = []
  · rw [if_pos (decide_eq_true h), if_neg fun hne => hne h]
    exact hend
  · rw [if_neg fun ht => h (of_decide_eq_true ht), if_pos h]
    exact hrest

/-- What is computed without requests is computed alike. -/
theorem lift {x : Except Error α} (he : ∀ e, x = .error e → e.IsRejection)
    {f : α → Checked (Reading whole.length) β} {g : {a // x = .ok a} → Reading whole.length β}
    (hf : ∀ a h, Follows whole (f a) (g ⟨a, h⟩)) :
    Follows whole (reading (ExceptT.lift x) >>= f) (Reading.lift x >>= g) := by
  cases x with
  | error e => exact fail (he e rfl)
  | ok a => exact hf a rfl

end Follows

/-! ## What is refused -/

theorem isRejection_firstSpan {kind : Bracket} {text : List Char} {e : Error}
    (h : Scan.firstSpan kind text = .error e) : e.IsRejection := by
  unfold Scan.firstSpan at h
  split at h
  · cases h
    trivial
  · cases h
  · split at h <;> cases h
    trivial

theorem isRejection_requireSpan {kind : Bracket} {text : List Char} {e : Error}
    (h : Scan.requireSpan kind text = .error e) : e.IsRejection := by
  unfold Scan.requireSpan at h
  split at h <;> cases h
  · next hspan => exact isRejection_firstSpan hspan
  · trivial

theorem isRejection_splitParts {sep : Separator} {text : List Char} {e : Error}
    (h : Scan.splitParts sep text = .error e) : e.IsRejection := by
  unfold Scan.splitParts at h
  split at h
  · cases h
  · split at h <;> cases h
    trivial

theorem isRejection_splitTag {entry : List Char} {e : Error}
    (h : Literal.splitTag entry = .error e) : e.IsRejection := by
  unfold Literal.splitTag at h
  split at h
  · cases h
  · split at h <;> cases h
    trivial

theorem isRejection_fieldEntry {text : List Char} {e : Error}
    (h : Literal.fieldEntry text = .error e) : e.IsRejection := by
  unfold Literal.fieldEntry at h
  cases hs : Literal.splitTag (trim text) with
  | error e' =>
    simp only [hs, bind, Except.bind] at h
    cases h
    exact isRejection_splitTag hs
  | ok p =>
    cases hp : Scan.splitParts .space p.1 with
    | error e' =>
      simp only [hs, hp, bind, Except.bind] at h
      cases h
      exact isRejection_splitParts hp
    | ok parts =>
      simp only [hs, hp, bind, Except.bind] at h
      split at h
      · cases h
        trivial
      · cases h
      · split at h <;> cases h
        trivial
      · split at h <;> cases h
        trivial

/-! ## Proper parts -/

/-- A part of a text that lacks a character of it. -/
def Inside (whole text : List Char) : Prop := text <:+: whole ∧ text.length < whole.length

namespace Inside
variable {text other : List Char}

theorem size (h : Inside whole text) : utf8Size text < utf8Size whole :=
  utf8Size_lt_of_isInfix h.1 h.2

theorem limit (h : Inside whole text) (hlimit : utf8Size whole < sizeLimit) :
    utf8Size text < sizeLimit := Nat.lt_trans h.size hlimit

theorem part (h : Inside whole text) (hp : other <:+: text) : Inside whole other :=
  ⟨hp.trans h.1, Nat.lt_of_le_of_lt hp.length_le h.2⟩

theorem ask (h : Inside whole text) (hlength : text.length < whole.length) :
    Follows whole (Offsets.ask whole text) (.sub text hlength) := Follows.ask h.size hlength

end Inside

theorem inside_span {kind : Bracket} {text : List Char} {b : Span} (ht : text <:+: whole)
    (h : text = b.before ++ kind.opener :: (b.inner ++ kind.closer :: b.after)) :
    Inside whole b.inner ∧ Inside whole b.after := by
  have hlength := congrArg List.length h
  have hle := ht.length_le
  simp only [List.length_append, List.length_cons] at hlength
  refine ⟨⟨?_, by omega⟩, ⟨?_, by omega⟩⟩
  · refine List.IsInfix.trans ⟨b.before ++ [kind.opener], kind.closer :: b.after, ?_⟩ ht
    rw [h]
    simp
  · refine List.IsInfix.trans ⟨b.before ++ kind.opener :: (b.inner ++ [kind.closer]), [], ?_⟩ ht
    rw [h]
    simp

/-! ## Behind a span -/

section
variable {m : Type → Type} [Monad m] [LawfulMonad m] {kind : Bracket} {text : List Char} {b : Span}

theorem utf8Size_span (h : text = b.before ++ kind.opener :: (b.inner ++ kind.closer :: b.after)) :
    utf8Size text = b.closeOffset + 1 + utf8Size b.after := by
  have hopener : kind.opener.utf8Size = 1 := by cases kind <;> rfl
  have hcloser : kind.closer.utf8Size = 1 := by cases kind <;> rfl
  rw [h, Span.closeOffset]
  simp only [utf8Size_append, utf8Size_cons, hopener, hcloser]
  omega

theorem sliceBehind_span (hlimit : utf8Size text < sizeLimit)
    (h : text = b.before ++ kind.opener :: (b.inner ++ kind.closer :: b.after)) :
    sliceBehind text b.closeOffset = (pure b.after : Checked m _) := by
  have hcut : text = (b.before ++ kind.opener :: b.inner) ++ kind.closer :: b.after := by
    rw [h]
    simp
  have hopener : kind.opener.utf8Size = 1 := by cases kind <;> rfl
  have hcloser : kind.closer.utf8Size = 1 := by cases kind <;> rfl
  refine sliceBehind_eq hlimit hcloser hcut ?_
  rw [Span.closeOffset, utf8Size_append, utf8Size_cons, hopener, Nat.add_assoc]

theorem endsText_eq (h : text = b.before ++ kind.opener :: (b.inner ++ kind.closer :: b.after)) :
    endsText text (.of b) = (pure (decide (b.after = [])) : Checked m _) := by
  have hsize := utf8Size_span h
  have hiff : b.closeOffset = utf8Size text - 1 ↔ b.after = [] := by
    constructor
    · intro he
      exact utf8Size_eq_zero (by omega)
    · intro he
      rw [he, utf8Size_nil] at hsize
      omega
  rw [endsText, OffsetSpan.of, sub_eq (by omega), pure_bind]
  simp only [hiff]

end

theorem reading_map {n : Nat} {γ : Type} (φ : α → γ) (x : Except Error α)
    (f : γ → Checked (Reading n) β) :
    reading (ExceptT.lift (φ <$> x)) >>= f = reading (ExceptT.lift x) >>= fun a => f (φ a) := by
  cases x <;> rfl

namespace Follows
variable {text : List Char}

theorem span {kind : Bracket} (hlimit : utf8Size text < sizeLimit)
    {f : OffsetSpan → Checked (Reading whole.length) β}
    {g : {b : Span // b.before.length + b.inner.length + b.after.length + 2 = text.length} →
      Reading whole.length β}
    (hf : ∀ b hb, text = b.before ++ kind.opener :: (b.inner ++ kind.closer :: b.after) →
      Follows whole (f (.of b)) (g ⟨b, hb⟩)) :
    Follows whole (reading (requireSpan kind text) >>= f) (Literal.span kind text >>= g) := by
  rw [requireSpan_eq hlimit, reading_map, Literal.span, bind_assoc]
  exact Follows.lift (fun _ he => isRejection_requireSpan he) fun b h =>
    hf b _ (requireSpan_eq_append h)

theorem parts {sep : Separator} (hi : Inside whole text) (hlimit : utf8Size whole < sizeLimit)
    (hlength : text.length < whole.length)
    {f : List (List Char) → Checked (Reading whole.length) β}
    {g : List (Below whole.length) → Reading whole.length β}
    (hf : ∀ ps hp, (∀ p ∈ ps, Inside whole p) →
      Follows whole (f ps) (g (ps.attachWith (·.length < whole.length) hp))) :
    Follows whole (reading (splitParts sep text) >>= f)
      (Literal.parts sep text hlength >>= g) := by
  rw [splitParts_eq (hi.limit hlimit), Literal.parts, bind_assoc]
  exact Follows.lift (fun _ he => isRejection_splitParts he) fun ps h =>
    hf ps _ fun p hm => hi.part (isInfix_of_mem_splitParts h hm)

theorem subs {ps : List (List Char)} {hp : ∀ p ∈ ps, p.length < whole.length}
    (hi : ∀ p ∈ ps, Inside whole p) :
    Follows whole (ps.mapM (Offsets.ask whole))
      (Literal.subs (ps.attachWith (·.length < whole.length) hp)) :=
  mapM fun p hm => (hi p hm).ask _

end Follows
end Offsets
end TypeIdentity
