import Mathlib.Data.Fintype.Defs
import Mathlib.Data.List.Infix
import TypeIdentity.Proofs.Scan.Splitting

/-! # Texts in balance

What a scanner counts are the characters outside quotes.  A text is in balance for a kind of bracket
when, of these, no closing bracket comes before its opening one and none is left open at the end.
Unlike a nested text, a balanced one may cross brackets of different kinds, since every kind is
counted by itself.
-/
namespace TypeIdentity.Scan
open Text

/-! ## Outside quotes -/

/-- The characters outside quotes, the quotes that open among them. -/
def Quoting.exposed (q : Quoting) : List Char → List Char
  | [] => []
  | c :: rest => if q.quoted then (q.step c).exposed rest else c :: (q.step c).exposed rest

/-- Every quote is closed, and backslashes stand inside quotes only. -/
structure QuotesClosed (text : List Char) : Prop where
  closed : (Quoting.plain.run text).quoted = false
  backslash : '\\' ∉ Quoting.plain.exposed text

instance (text : List Char) : Decidable (QuotesClosed text) :=
  decidable_of_iff
    ((Quoting.plain.run text).quoted = false ∧ '\\' ∉ Quoting.plain.exposed text)
    ⟨fun h => ⟨h.1, h.2⟩, fun h => ⟨h.1, h.2⟩⟩

namespace Quoting
variable {q : Quoting} {c : Char} {text : List Char}

theorem exposed_cons_quoted (hq : q.quoted = true) (c : Char) (text : List Char) :
    q.exposed (c :: text) = (q.step c).exposed text := if_pos hq

theorem exposed_cons_unquoted (hq : q.quoted = false) (c : Char) (text : List Char) :
    q.exposed (c :: text) = c :: (q.step c).exposed text := by
  simp [exposed, hq]

/-- Backslashes have only been read inside quotes. -/
def Settled (q : Quoting) : Prop := q.quoted = false → q.escaped = false

theorem settled_plain : plain.Settled := fun _ => rfl

theorem Settled.eq_plain (h : q.Settled) (hq : q.quoted = false) : q = plain := by
  obtain ⟨quoted, escaped⟩ := q
  obtain rfl : quoted = false := hq
  obtain rfl : escaped = false := h rfl
  rfl

theorem Settled.step (h : q.Settled) (hc : '\\' ∉ q.exposed (c :: text)) :
    (q.step c).Settled ∧ '\\' ∉ (q.step c).exposed text := by
  cases hq : q.quoted with
  | true =>
    rw [exposed_cons_quoted hq] at hc
    refine ⟨?_, hc⟩
    unfold Quoting.step
    split
    · exact fun _ => rfl
    · split
      · intro hquoted
        simp [hq] at hquoted
      · split
        · exact fun _ => rfl
        · exact h
  | false =>
    rw [exposed_cons_unquoted hq, List.mem_cons, not_or] at hc
    obtain rfl := h.eq_plain hq
    refine ⟨?_, hc.2⟩
    unfold Quoting.step
    rw [if_neg (by decide), if_neg (Ne.symm hc.1)]
    split
    · exact fun _ => rfl
    · exact settled_plain

end Quoting

/-- Between closed quotes nothing is open and no backslash stands last. -/
theorem QuotesClosed.run {text : List Char} (h : QuotesClosed text) :
    Quoting.plain.run text = .plain := by
  have hrun {q : Quoting} (hq : q.Settled) (ht : '\\' ∉ q.exposed text) :
      (q.run text).Settled := by
    clear h
    induction text generalizing q with
    | nil => exact hq
    | cons c text ih =>
      obtain ⟨hs, ht⟩ := hq.step ht
      exact ih hs ht
  exact (hrun Quoting.settled_plain h.backslash).eq_plain h.closed

/-! ## Outside of quotes and escapes -/

section Structural
variable {q : Quoting} {c : Char} {text : List Char}

/-- The characters that may be brackets or separators. -/
def Quoting.structural (q : Quoting) : List Char → List Char
  | [] => []
  | c :: rest =>
    if q.isStructural c then c :: (q.step c).structural rest else (q.step c).structural rest

namespace Quoting

theorem structural_cons_of_isStructural (h : q.isStructural c = true) (text : List Char) :
    q.structural (c :: text) = c :: q.structural text := by
  rw [structural, if_pos h, step_of_isStructural h]

theorem structural_cons_of_not (h : q.isStructural c = false) (text : List Char) :
    q.structural (c :: text) = (q.step c).structural text := by
  rw [structural, if_neg (by simp [h])]

theorem structural_append (q : Quoting) (u v : List Char) :
    q.structural (u ++ v) = q.structural u ++ (q.run u).structural v := by
  induction u generalizing q with
  | nil => rfl
  | cons c u ih =>
    rw [List.cons_append, structural, structural, ih, run_cons]
    split <;> rfl

theorem mem_structural : c ∈ q.structural text ↔
    ∃ before after, text = before ++ c :: after ∧ (q.run before).isStructural c = true := by
  constructor
  · intro hm
    induction text generalizing q with
    | nil => cases hm
    | cons d text ih =>
      have hrest (hm : c ∈ (q.step d).structural text) : ∃ before after,
          d :: text = before ++ c :: after ∧ (q.run before).isStructural c = true := by
        obtain ⟨before, after, rfl, hs⟩ := ih hm
        exact ⟨d :: before, after, rfl, hs⟩
      rw [structural] at hm
      split at hm
      · next hd =>
        rcases List.mem_cons.1 hm with rfl | hm
        · exact ⟨[], text, rfl, hd⟩
        · exact hrest hm
      · exact hrest hm
  · rintro ⟨before, after, rfl, hs⟩
    rw [structural_append, structural_cons_of_isStructural hs]
    exact List.mem_append_right _ (List.mem_cons_self ..)

/-- Where backslashes stand in quotes only, what is exposed besides are the quotes that open. -/
theorem Settled.structural_eq (h : q.Settled) (hb : '\\' ∉ q.exposed text) :
    q.structural text = (q.exposed text).filter (· ≠ '"') := by
  induction text generalizing q with
  | nil => rfl
  | cons c text ih =>
    obtain ⟨hsettled, hrest⟩ := h.step hb
    cases hquoted : q.quoted with
    | true =>
      have hskip : q.isStructural c = false := by simp [isStructural, hquoted]
      rw [structural_cons_of_not hskip, exposed_cons_quoted hquoted, ih hsettled hrest]
    | false =>
      obtain rfl := h.eq_plain hquoted
      rw [exposed_cons_unquoted hquoted, List.mem_cons, not_or] at hb
      rw [exposed_cons_unquoted hquoted, List.filter_cons]
      by_cases hquote : c = '"'
      · subst hquote
        rw [structural_cons_of_not rfl, ih hsettled hrest]
        rfl
      · have hstruct : plain.isStructural c = true := by
          simp [isStructural, plain, hquote, Ne.symm hb.1]
        rw [if_pos (by simpa using hquote), ← ih hsettled hrest, structural, if_pos hstruct]

end Quoting

theorem QuotesClosed.structural_eq (h : QuotesClosed text) :
    Quoting.plain.structural text = (Quoting.plain.exposed text).filter (· ≠ '"') :=
  Quoting.settled_plain.structural_eq h.backslash

end Structural

/-! ## Counting brackets -/

/-- No bracket of the kind is closed before it is opened, and all are closed in the end. -/
def Balanced (kind : Bracket) (text : List Char) : Prop :=
  (∀ u ∈ text.inits, u.count kind.closer ≤ u.count kind.opener) ∧
    text.count kind.closer = text.count kind.opener

/-- A separator stands only where a bracket of some kind is open. -/
def Covered (sep : Separator) (text : List Char) : Prop :=
  ∀ u ∈ text.inits, u ++ [sep.char] <+: text → ∃ kind : Bracket,
    u.count kind.closer < u.count kind.opener

instance (kind : Bracket) (text : List Char) : Decidable (Balanced kind text) :=
  inferInstanceAs (Decidable (_ ∧ _))

instance : Fintype Bracket where
  elems := ⟨[Bracket.round, Bracket.square, Bracket.curly], by decide⟩
  complete kind := by cases kind <;> decide

instance (sep : Separator) (text : List Char) : Decidable (Covered sep text) :=
  inferInstanceAs (Decidable (∀ u ∈ text.inits, _))

namespace Depths

/-- How many brackets of a kind are open. -/
def get (d : Depths) : Bracket → Nat
  | .round => d.round
  | .square => d.square
  | .curly => d.curly

@[simp] theorem get_top (kind : Bracket) : top.get kind = 0 := by cases kind <;> rfl

theorem ext_get {d e : Depths} (h : ∀ kind, d.get kind = e.get kind) : d = e := by
  obtain ⟨_, _, _⟩ := d
  obtain ⟨_, _, _⟩ := e
  obtain rfl := h .round
  obtain rfl := h .square
  obtain rfl := h .curly
  rfl

theorem exists_step {c : Char} (d : Depths)
    (h : ∀ kind : Bracket, c = kind.closer → 0 < d.get kind) : ∃ e, d.step c = some e := by
  have hround := h .round
  have hsquare := h .square
  have hcurly := h .curly
  unfold step
  split_ifs with h1 h2 h3 h4 h5 h6 h7 h8 h9
  · exact ⟨_, rfl⟩
  · exact ⟨_, rfl⟩
  · exact ⟨_, rfl⟩
  · exact absurd h5 (Nat.ne_of_gt (hround h4))
  · exact ⟨_, rfl⟩
  · exact absurd h7 (Nat.ne_of_gt (hsquare h6))
  · exact ⟨_, rfl⟩
  · exact absurd h9 (Nat.ne_of_gt (hcurly h8))
  · exact ⟨_, rfl⟩
  · exact ⟨_, rfl⟩

/-- Every kind is counted by itself. -/
theorem get_of_step {d e : Depths} {c : Char} (h : d.step c = some e) (kind : Bracket) :
    e.get kind + [c].count kind.closer = d.get kind + [c].count kind.opener := by
  unfold step at h
  split_ifs at h with h1 h2 h3 h4 h5 h6 h7 h8 h9 <;> obtain rfl := Option.some.inj h
  · subst h1
    cases kind <;> rfl
  · subst h2
    cases kind <;> rfl
  · subst h3
    cases kind <;> rfl
  · subst h4
    cases kind with
    | round => exact Nat.sub_add_cancel (Nat.pos_of_ne_zero h5)
    | square | curly => rfl
  · subst h6
    cases kind with
    | square => exact Nat.sub_add_cancel (Nat.pos_of_ne_zero h7)
    | round | curly => rfl
  · subst h8
    cases kind with
    | curly => exact Nat.sub_add_cancel (Nat.pos_of_ne_zero h9)
    | round | square => rfl
  · cases kind <;> simp_all [Bracket.opener, Bracket.closer, get]

end Depths

/-! ## From any depth -/

/-- From `depth` open brackets of a kind none is closed that is not open, and all are in the end. -/
structure ClosesFrom (kind : Bracket) (depth : Nat) (text : List Char) : Prop where
  closes : ∀ u v, text = u ++ v → u.count kind.closer ≤ depth + u.count kind.opener
  ends : text.count kind.closer = depth + text.count kind.opener

section OneKind
variable {kind : Bracket} {depth : Nat} {c : Char} {text : List Char}

theorem balanced_iff : Balanced kind text ↔ ClosesFrom kind 0 text := by
  constructor
  · rintro ⟨hcloses, hends⟩
    refine ⟨?_, by simpa using hends⟩
    rintro u v rfl
    simpa using hcloses u ((List.mem_inits _ _).2 (List.prefix_append u v))
  · intro h
    refine ⟨?_, by simpa using h.ends⟩
    intro u hu
    obtain ⟨v, rfl⟩ := (List.mem_inits _ _).1 hu
    simpa using h.closes u v rfl

theorem closesFrom_nil : ClosesFrom kind depth [] ↔ depth = 0 := by
  constructor
  · intro h
    simpa using h.ends.symm
  · rintro rfl
    refine ⟨?_, rfl⟩
    intro u v huv
    obtain ⟨rfl, -⟩ := List.append_eq_nil_iff.1 huv.symm
    exact Nat.le_refl _

/-- One character moves the depth by what it opens and closes. -/
theorem closesFrom_cons : ClosesFrom kind depth (c :: text) ↔
    ∃ e, e + [c].count kind.closer = depth + [c].count kind.opener ∧ ClosesFrom kind e text := by
  have hcons (u : List Char) (a : Char) : (c :: u).count a = [c].count a + u.count a := by
    rw [← List.singleton_append, List.count_append]
  constructor
  · intro h
    have hfirst := h.closes [c] text rfl
    refine ⟨depth + [c].count kind.opener - [c].count kind.closer, by omega, ?_, ?_⟩
    · rintro u v rfl
      have hlater := h.closes (c :: u) v rfl
      rw [hcons u kind.closer, hcons u kind.opener] at hlater
      omega
    · have hend := h.ends
      rw [hcons text kind.closer, hcons text kind.opener] at hend
      omega
  · rintro ⟨e, he, h⟩
    constructor
    · intro u v huv
      cases u with
      | nil => simp
      | cons d u =>
        obtain ⟨rfl, rfl⟩ := List.cons.inj huv
        have hlater := h.closes u v rfl
        rw [hcons u kind.closer, hcons u kind.opener]
        omega
    · have hend := h.ends
      rw [hcons text kind.closer, hcons text kind.opener]
      omega

theorem closesFrom_opener :
    ClosesFrom kind depth (kind.opener :: text) ↔ ClosesFrom kind (depth + 1) text := by
  have hcloser : [kind.opener].count kind.closer = 0 := by cases kind <;> rfl
  rw [closesFrom_cons, hcloser, List.count_singleton_self]
  simp

theorem closesFrom_closer :
    ClosesFrom kind depth (kind.closer :: text) ↔ ∃ e, depth = e + 1 ∧ ClosesFrom kind e text := by
  have hopener : [kind.closer].count kind.opener = 0 := by cases kind <;> rfl
  rw [closesFrom_cons, hopener, List.count_singleton_self]
  simp only [Nat.add_zero, eq_comm]

theorem closesFrom_other (ho : c ≠ kind.opener) (hc : c ≠ kind.closer) :
    ClosesFrom kind depth (c :: text) ↔ ClosesFrom kind depth text := by
  rw [closesFrom_cons, List.count_singleton, List.count_singleton, if_neg (by simpa using hc),
    if_neg (by simpa using ho)]
  simp

/-- What is no bracket of the kind may be left out. -/
theorem ClosesFrom.filter {p : Char → Bool} (ho : p kind.opener = true)
    (hc : p kind.closer = true) (h : ClosesFrom kind depth text) :
    ClosesFrom kind depth (text.filter p) := by
  constructor
  · intro u v huv
    obtain ⟨w, ⟨w', rfl⟩, rfl⟩ := List.prefix_filter_iff.1 ⟨v, huv.symm⟩
    rw [List.count_filter hc, List.count_filter ho]
    exact h.closes w w' rfl
  · rw [List.count_filter hc, List.count_filter ho]
    exact h.ends

theorem QuotesClosed.balanced (h : QuotesClosed text)
    (hb : Balanced kind (Quoting.plain.exposed text)) :
    Balanced kind (Quoting.plain.structural text) := by
  have hopener : (decide (kind.opener ≠ '"')) = true := by cases kind <;> rfl
  have hcloser : (decide (kind.closer ≠ '"')) = true := by cases kind <;> rfl
  rw [h.structural_eq, balanced_iff]
  exact (balanced_iff.1 hb).filter hopener hcloser

end OneKind

/-- When no kind closes what is not open, a character can be counted, and the rest goes on. -/
theorem Depths.exists_step_of_closesFrom {d : Depths} {c : Char} {text : List Char}
    (h : ∀ kind, ClosesFrom kind (d.get kind) (c :: text)) :
    ∃ e, d.step c = some e ∧ ∀ kind, ClosesFrom kind (e.get kind) text := by
  have hpos (kind : Bracket) (hc : c = kind.closer) : 0 < d.get kind := by
    subst hc
    obtain ⟨e, he, -⟩ := closesFrom_closer.1 (h kind)
    omega
  obtain ⟨e, he⟩ := d.exists_step hpos
  refine ⟨e, he, fun kind => ?_⟩
  obtain ⟨depth, hdepth, hrest⟩ := closesFrom_cons.1 (h kind)
  have hcount := get_of_step he kind
  obtain rfl : depth = e.get kind := by omega
  exact hrest

theorem Depths.eq_top_of_closesFrom {d : Depths} (h : ∀ kind, ClosesFrom kind (d.get kind) []) :
    d = .top := by
  refine ext_get fun kind => ?_
  rw [get_top]
  exact closesFrom_nil.1 (h kind)

/-- A text that is read from depth `d` back to the top, with no separator at the top on the way. -/
structure Returns (sep : Separator) (d : Depths) (text : List Char) : Prop where
  closes : ∀ (kind : Bracket) (u v : List Char), text = u ++ v →
    u.count kind.closer ≤ d.get kind + u.count kind.opener
  ends : ∀ kind : Bracket, text.count kind.closer = d.get kind + text.count kind.opener
  covers : ∀ u v : List Char, text = u ++ sep.char :: v →
    ∃ kind : Bracket, u.count kind.closer < d.get kind + u.count kind.opener

namespace Returns
variable {sep : Separator} {d : Depths} {c : Char} {text : List Char}

theorem closesFrom (h : Returns sep d text) (kind : Bracket) :
    ClosesFrom kind (d.get kind) text := ⟨h.closes kind, h.ends kind⟩

theorem of_balanced (hb : ∀ kind, Balanced kind text) (hc : Covered sep text) :
    Returns sep .top text := by
  have hcloses (kind : Bracket) : ClosesFrom kind (Depths.top.get kind) text := by
    rw [Depths.get_top]
    exact balanced_iff.1 (hb kind)
  refine ⟨fun kind => (hcloses kind).closes, fun kind => (hcloses kind).ends, ?_⟩
  rintro u v rfl
  simpa using hc u ((List.mem_inits _ _).2 (List.prefix_append u _)) ⟨v, by simp⟩

theorem eq_top (h : Returns sep d []) : d = .top := Depths.eq_top_of_closesFrom h.closesFrom

/-- One character: it does not close what is not open, and a separator is not at the top. -/
theorem step (h : Returns sep d (c :: text)) :
    ∃ e, d.step c = some e ∧ (c = sep.char → e ≠ .top) ∧ Returns sep e text := by
  obtain ⟨e, he, hrest⟩ := Depths.exists_step_of_closesFrom h.closesFrom
  refine ⟨e, he, ?_, fun kind => (hrest kind).closes, fun kind => (hrest kind).ends, ?_⟩
  · rintro rfl rfl
    obtain ⟨kind, hkind⟩ := h.covers [] text rfl
    have hsame := step_of_isPlain (isPlain_char sep) d
    obtain rfl : d = .top := Option.some.inj (hsame.symm.trans he)
    simp at hkind
  · rintro u v rfl
    obtain ⟨kind, hkind⟩ := h.covers (c :: u) v rfl
    have hcount := Depths.get_of_step he kind
    rw [← List.singleton_append, List.count_append, List.count_append] at hkind
    exact ⟨kind, by omega⟩

end Returns

/-! ## Words of balanced texts -/

/-- A text that is read back to the top can be split at spaces. -/
theorem exists_splitFrom_space {q : Quoting} {d : Depths} {text : List Char}
    (hrun : q.run text = .plain)
    (h : ∀ kind, ClosesFrom kind (d.get kind) (q.structural text)) (part : List Char) :
    ∃ words, splitFrom .space q d part text = .ok words := by
  induction text generalizing q d part with
  | nil =>
    obtain rfl : q = .plain := hrun
    obtain rfl := Depths.eq_top_of_closesFrom h
    obtain ⟨closed, hclosed, -⟩ := closePart_space part.reverse
    exact ⟨closed, hclosed⟩
  | cons c text ih =>
    cases hs : q.isStructural c with
    | false =>
      rw [Quoting.structural_cons_of_not hs] at h
      obtain ⟨words, hwords⟩ := ih hrun h (c :: part)
      refine ⟨words, ?_⟩
      rw [splitFrom, if_neg (by simp [hs]), hwords]
    | true =>
      rw [Quoting.structural_cons_of_isStructural hs] at h
      rw [Quoting.run_cons, step_of_isStructural hs] at hrun
      obtain ⟨e, he, hrest⟩ := Depths.exists_step_of_closesFrom h
      by_cases hcut : c = Separator.space.char ∧ e = .top
      · obtain ⟨rfl, rfl⟩ := hcut
        obtain rfl := eq_plain_of_isStructural hs
        obtain rfl : d = .top :=
          Option.some.inj ((step_of_isPlain (isPlain_char .space) d).symm.trans he)
        obtain ⟨closed, hclosed, -⟩ := closePart_space part.reverse
        obtain ⟨words, hwords⟩ := ih hrun hrest []
        have hsplit := splitFrom_cut .space part text
        rw [hclosed, hwords] at hsplit
        exact ⟨closed ++ words, hsplit⟩
      · obtain ⟨words, hwords⟩ := ih hrun hrest (c :: part)
        exact ⟨words, (splitFrom_keep hs he (fun hc ht => hcut ⟨hc, ht⟩) text).trans hwords⟩

theorem exists_splitParts_space {text : List Char} (ht : Trimmed text)
    (hrun : Quoting.plain.run text = .plain)
    (hb : ∀ kind, Balanced kind (Quoting.plain.structural text)) :
    ∃ words, splitParts .space text = .ok words := by
  have hcloses (kind : Bracket) :
      ClosesFrom kind (Depths.top.get kind) (Quoting.plain.structural text) := by
    rw [Depths.get_top]
    exact balanced_iff.1 (hb kind)
  obtain ⟨words, hwords⟩ := exists_splitFrom_space hrun hcloses []
  exact ⟨words, (splitParts_eq_ok_iff ht).2 hwords⟩

end TypeIdentity.Scan
