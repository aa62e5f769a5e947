import TypeIdentity.Literal.Level
import TypeIdentity.Proofs.Text.Leads
import TypeIdentity.Proofs.Text.Trimming

/-! # Telling the kind of a type

Each kind of type is told from the words with which its text begins; an ordinary text, alone or
before an opening bracket, is a name.
-/
namespace TypeIdentity.Literal
open Text

namespace Head

theorem opened?_some {lead : String} {c : Char} {id rest : List Char}
    (h : id = lead.toList ++ c :: rest) :
    ∃ hle, opened? lead c id = some ⟨c :: rest, hle⟩ := by
  have ha : after? lead id = some (c :: rest) := by rw [h, after?_append]
  unfold opened?
  split
  · next hn => rw [ha] at hn; cases hn
  · next rest' hr =>
    obtain rfl : c :: rest = rest' := Option.some.inj (ha.symm.trans hr)
    exact ⟨by simp [h], if_pos rfl⟩

theorem opened?_none {lead : String} {c : Char} {id : List Char}
    (h : ∀ rest, id ≠ lead.toList ++ c :: rest) : opened? lead c id = none := by
  unfold opened?
  split
  · rfl
  · next rest hr =>
    apply if_neg
    intro hc
    obtain ⟨rest', rfl⟩ := List.head?_eq_some_iff.1 hc
    exact h rest' (eq_append_of_after? hr)

theorem block?_some {keyword : String} {id pad rest : List Char}
    (hp : ∀ c ∈ pad, isBlank c = true) (h : id = keyword.toList ++ pad ++ '\x7b' :: rest) :
    ∃ hle, block? keyword id = some ⟨'\x7b' :: rest, hle⟩ := by
  have ha : after? keyword id = some (pad ++ '\x7b' :: rest) := by
    rw [h, List.append_assoc, after?_append]
  have ht : trimStart (pad ++ '\x7b' :: rest) = '\x7b' :: rest :=
    trimStart_blank pad hp ⟨'\x7b', rest, rfl, by decide⟩
  unfold block?
  split
  · next hn => rw [ha] at hn; cases hn
  · next rest' hr =>
    obtain rfl : pad ++ '\x7b' :: rest = rest' := Option.some.inj (ha.symm.trans hr)
    simp only [ht]
    exact ⟨by simp [h]; omega, if_pos rfl⟩

theorem block?_none {keyword : String} {id : List Char}
    (h : ∀ pad rest, (∀ c ∈ pad, isBlank c = true) → id ≠ keyword.toList ++ pad ++ '\x7b' :: rest) :
    block? keyword id = none := by
  unfold block?
  split
  · rfl
  · next rest hr =>
    apply if_neg
    intro hc
    obtain ⟨rest', ht⟩ := List.head?_eq_some_iff.1 hc
    refine h (rest.takeWhile isBlank) rest' (fun c hm => List.mem_takeWhile_imp hm) ?_
    rw [eq_append_of_after? hr, List.append_assoc, ← ht, trimStart, List.takeWhile_append_dropWhile]

theorem chan?_some {id elem : List Char} {dir : Direction}
    (h : Direction.ofLead? id = some (dir, elem)) :
    ∃ hlt, chan? id = some (chan dir ⟨elem, hlt⟩) := by
  unfold chan?
  split
  · next hn => rw [h] at hn; cases hn
  · next dir' elem' hr =>
    obtain ⟨rfl, rfl⟩ := Prod.mk.inj (Option.some.inj (h.symm.trans hr))
    exact ⟨Direction.length_of_ofLead? h, rfl⟩

theorem chan?_none {id : List Char} (h : ∀ (d : Direction) rest, id ≠ d.lead.toList ++ rest) :
    chan? id = none := by
  have ha (d : Direction) : after? d.lead id = none := by
    cases hd : after? d.lead id with
    | none => rfl
    | some rest => exact absurd (eq_append_of_after? hd) (h d rest)
  have hn : Direction.ofLead? id = none := by simp [Direction.ofLead?, ha]
  unfold chan?
  split
  · rfl
  · next hr => rw [hn] at hr; cases hr

theorem ofLead?_lead (d : Direction) (rest : List Char) :
    Direction.ofLead? (d.lead.toList ++ rest) = some (d, rest) := by
  cases d <;> rfl

theorem pointer?_none {id : List Char} (h : id.head? ≠ some '*') : pointer? id = none := by
  unfold pointer?
  split
  · exact absurd rfl h
  · rfl

/-! ## Each kind of type -/

section Kinds
variable {id rest : List Char}

theorem opened?_first {lead : String} {l c d : Char} {ls : List Char} (hl : lead.toList = l :: ls)
    (hd : d ≠ l) (h : id = d :: rest) : opened? lead c id = none := by
  apply opened?_none
  intro rest' he
  rw [h, hl] at he
  exact hd (List.cons.inj he).1

theorem block?_first {keyword : String} {k d : Char} {ks : List Char}
    (hk : keyword.toList = k :: ks) (hd : d ≠ k) (h : id = d :: rest) :
    block? keyword id = none := by
  apply block?_none
  intro pad rest' _ he
  rw [h, hk] at he
  exact hd (List.cons.inj he).1

theorem chan?_first {d : Char} (hd : d ≠ 'c' ∧ d ≠ '<') (h : id = d :: rest) : chan? id = none := by
  apply chan?_none
  intro dir rest' he
  rw [h] at he
  cases dir with
  | send | both => exact hd.1 (List.cons.inj he).1
  | recv => exact hd.2 (List.cons.inj he).1

theorem opened?_bracket {d : Char} (hd : d ≠ '[') (h : id = d :: rest) :
    opened? "" '[' id = none := by
  apply opened?_none
  intro rest' he
  rw [h] at he
  exact hd (List.cons.inj he).1

theorem of_sequence (h : id = '[' :: rest) : of id = sequence := by
  obtain ⟨hle, hs⟩ : ∃ hle, opened? "" '[' id = some ⟨'[' :: rest, hle⟩ := opened?_some h
  simp [of, hs]

theorem of_map (h : id = "map".toList ++ '[' :: rest) :
    ∃ hle, of id = map ⟨'[' :: rest, hle⟩ := by
  have hs := opened?_bracket (d := 'm') (by decide) h
  obtain ⟨hle, hm⟩ := opened?_some h
  exact ⟨hle, by simp [of, hs, hm]⟩

theorem of_chan (dir : Direction) (rest : List Char) :
    ∃ hlt, of (dir.lead.toList ++ rest) = chan dir ⟨rest, hlt⟩ := by
  obtain ⟨d, lead, hd, hne⟩ : ∃ d lead, dir.lead.toList = d :: lead ∧ d ≠ '[' ∧ d ≠ 'm' := by
    cases dir with
    | send | both => exact ⟨'c', _, rfl, by decide⟩
    | recv => exact ⟨'<', _, rfl, by decide⟩
  have he : dir.lead.toList ++ rest = d :: (lead ++ rest) := by rw [hd, List.cons_append]
  have hs := opened?_bracket hne.1 he
  have hm : opened? "map" '[' (dir.lead.toList ++ rest) = none := opened?_first rfl hne.2 he
  obtain ⟨hlt, hc⟩ := chan?_some (ofLead?_lead dir rest)
  exact ⟨hlt, by simp [of, hs, hm, hc]⟩

theorem of_func (h : id = "func".toList ++ '(' :: rest) :
    ∃ hle, of id = func ⟨'(' :: rest, hle⟩ := by
  have hs := opened?_bracket (d := 'f') (by decide) h
  have hm : opened? "map" '[' id = none := opened?_first (d := 'f') rfl (by decide) h
  have hc := chan?_first (d := 'f') (by decide) h
  obtain ⟨hle, hf⟩ := opened?_some h
  exact ⟨hle, by simp [of, hs, hm, hc, hf]⟩

theorem of_struct {pad : List Char} (hp : ∀ c ∈ pad, isBlank c = true)
    (h : id = "struct".toList ++ pad ++ '\x7b' :: rest) :
    ∃ hle, of id = struct ⟨'\x7b' :: rest, hle⟩ := by
  have hs := opened?_bracket (d := 's') (by decide) h
  have hm : opened? "map" '[' id = none := opened?_first (d := 's') rfl (by decide) h
  have hc := chan?_first (d := 's') (by decide) h
  have hf : opened? "func" '(' id = none := opened?_first (d := 's') rfl (by decide) h
  obtain ⟨hle, hb⟩ := block?_some hp h
  exact ⟨hle, by simp [of, hs, hm, hc, hf, hb]⟩

theorem of_interface {pad : List Char} (hp : ∀ c ∈ pad, isBlank c = true)
    (h : id = "interface".toList ++ pad ++ '\x7b' :: rest) :
    ∃ hle, of id = interface ⟨'\x7b' :: rest, hle⟩ := by
  have hs := opened?_bracket (d := 'i') (by decide) h
  have hm : opened? "map" '[' id = none := opened?_first (d := 'i') rfl (by decide) h
  have hc := chan?_first (d := 'i') (by decide) h
  have hf : opened? "func" '(' id = none := opened?_first (d := 'i') rfl (by decide) h
  have hb : block? "struct" id = none := block?_first (d := 'i') rfl (by decide) h
  obtain ⟨hle, hi⟩ := block?_some hp h
  exact ⟨hle, by simp [of, hs, hm, hc, hf, hb, hi]⟩

theorem of_pointer (rest : List Char) :
    of ('*' :: rest) = pointer ⟨rest, Nat.lt_succ_self _⟩ := by
  have he : '*' :: rest = '*' :: rest := rfl
  have hs := opened?_bracket (by decide) he
  have hm : opened? "map" '[' ('*' :: rest) = none := opened?_first rfl (by decide) he
  have hc := chan?_first (by decide) he
  have hf : opened? "func" '(' ('*' :: rest) = none := opened?_first rfl (by decide) he
  have hb : block? "struct" ('*' :: rest) = none := block?_first rfl (by decide) he
  have hi : block? "interface" ('*' :: rest) = none := block?_first rfl (by decide) he
  simp [of, hs, hm, hc, hf, hb, hi, pointer?]

end Kinds

/-! ## Names -/

variable {rest : List Char}

/-- In an ordinary text with brackets after it, the first other character is the bracket. -/
theorem eq_of_append {base tail lead : List Char} {c : Char} (hb : ∀ d ∈ base, IsOrdinary d)
    (ht : tail = [] ∨ ∃ u, tail = '[' :: u) (hc : ¬IsOrdinary c) (hl : '[' ∉ lead)
    (h : base ++ tail = lead ++ c :: rest) : base = lead ∧ c = '[' := by
  have hsame (u : List Char) (he : tail = c :: u) : c = '[' := by
    rcases ht with hn | ⟨v, hv⟩
    · rw [hn] at he
      cases he
    · rw [hv] at he
      exact (List.cons.inj he).1.symm
  rcases List.append_eq_append_iff.1 h with ⟨more, hlead, htail⟩ | ⟨more, hbase, hrest⟩
  · cases more with
    | nil => exact ⟨by rw [hlead, List.append_nil], hsame rest htail⟩
    | cons d more =>
      exfalso
      rcases ht with hn | ⟨v, hv⟩
      · rw [hn] at htail
        cases htail
      · rw [hv] at htail
        have hd : d = '[' := (List.cons.inj htail).1.symm
        exact hl (by simp [hlead, hd])
  · cases more with
    | nil => exact ⟨by rw [hbase, List.append_nil], hsame rest hrest.symm⟩
    | cons d more =>
      have hd : c = d := (List.cons.inj hrest).1
      exact absurd (hb d (by simp [hbase])) (hd ▸ hc)

theorem exists_lead_eq (d : Direction) : ∃ lead, d.lead.toList = lead ++ [' '] ∧ '[' ∉ lead := by
  cases d with
  | send => exact ⟨"chan<-".toList, rfl, by decide⟩
  | recv => exact ⟨"<-chan".toList, rfl, by decide⟩
  | both => exact ⟨"chan".toList, rfl, by decide⟩

/-- An ordinary text, alone or before an opening bracket, is a name. -/
theorem of_name {base tail : List Char} (hb : ∀ d ∈ base, IsOrdinary d) (hne : base ≠ [])
    (hstar : base.head? ≠ some '*') (hmap : base ≠ "map".toList)
    (ht : tail = [] ∨ ∃ u, tail = '[' :: u) : of (base ++ tail) = name := by
  have hs : opened? "" '[' (base ++ tail) = none :=
    opened?_none fun rest he => hne (eq_of_append hb ht (by decide) (by decide) he).1
  have hm : opened? "map" '[' (base ++ tail) = none :=
    opened?_none fun rest he => hmap (eq_of_append hb ht (by decide) (by decide) he).1
  have hc : chan? (base ++ tail) = none := by
    apply chan?_none
    intro d rest he
    obtain ⟨lead, hl, hn⟩ := exists_lead_eq d
    rw [hl, List.append_assoc] at he
    exact absurd (eq_of_append hb ht (by decide) hn he).2 (by decide)
  have hf : opened? "func" '(' (base ++ tail) = none :=
    opened?_none fun rest he =>
      absurd (eq_of_append hb ht (by decide) (by decide) he).2 (by decide)
  have hblock (keyword : String) (hk : '[' ∉ keyword.toList) :
      block? keyword (base ++ tail) = none := by
    apply block?_none
    intro pad rest hp he
    have hn : '[' ∉ keyword.toList ++ pad := by
      intro hmem
      rcases List.mem_append.1 hmem with hmem | hmem
      · exact hk hmem
      · exact absurd (hp _ hmem) (by decide)
    exact absurd (eq_of_append hb ht (by decide) hn he).2 (by decide)
  have hp : pointer? (base ++ tail) = none := by
    obtain ⟨c, more, rfl⟩ := List.exists_cons_of_ne_nil hne
    exact pointer?_none (by simpa using hstar)
  simp [of, hs, hm, hc, hf, hblock "struct" (by decide), hblock "interface" (by decide), hp]

/-! ## What is left to read -/

/-- What is left behind the words that tell a kind of type is a part of the id. -/
def Leaves {n : Nat} (id : List Char) : Head n → Prop
  | sequence | name => True
  | map rest | func rest | struct rest | interface rest => rest.1 <:+: id
  | chan _ elem | pointer elem => elem.1 <:+: id

theorem isInfix_of_opened? {lead : String} {c : Char} {id : List Char} {rest : Within id.length}
    (h : opened? lead c id = some rest) : rest.1 <:+: id := by
  unfold opened? at h
  split at h
  · cases h
  · next hlead =>
    split at h <;> cases h
    exact (isSuffix_of_after? hlead).isInfix

theorem isInfix_of_block? {keyword : String} {id : List Char} {rest : Within id.length}
    (h : block? keyword id = some rest) : rest.1 <:+: id := by
  unfold block? at h
  split at h
  · cases h
  · next hlead =>
    split at h <;> cases h
    exact ((isSuffix_trimStart _).trans (isSuffix_of_after? hlead)).isInfix

theorem leaves_of_chan? {id : List Char} {h : Head id.length} (hc : chan? id = some h) :
    h.Leaves id := by
  unfold chan? at hc
  split at hc <;> cases hc
  next hdir =>
    obtain ⟨d, -, hd⟩ := List.exists_of_findSome?_eq_some hdir
    obtain ⟨rest, hrest, he⟩ := Option.map_eq_some_iff.1 hd
    obtain ⟨-, rfl⟩ := Prod.mk.inj he
    exact (isSuffix_of_after? hrest).isInfix

theorem leaves_of_pointer? {id : List Char} {h : Head id.length} (hp : pointer? id = some h) :
    h.Leaves id := by
  unfold pointer? at hp
  split at hp <;> cases hp
  exact (List.suffix_cons _ _).isInfix

theorem leaves_of (id : List Char) : (of id).Leaves id := by
  have orElse {x y : Option (Head id.length)} (hx : ∀ h, x = some h → h.Leaves id)
      (hy : ∀ h, y = some h → h.Leaves id) (h : Head id.length) (he : (x <|> y) = some h) :
      h.Leaves id := by
    cases x with
    | none => exact hy h (by simpa using he)
    | some a => exact hx h (by simpa using he)
  have otherwise {x : Option (Head id.length)} (hx : ∀ h, x = some h → h.Leaves id) :
      (x.getD name).Leaves id := by
    cases x with
    | none => trivial
    | some a => exact hx a rfl
  have mapped {γ : Type} {x : Option γ} {f : γ → Head id.length}
      (hx : ∀ a, x = some a → (f a).Leaves id) (h : Head id.length) (he : x.map f = some h) :
      h.Leaves id := by
    obtain ⟨a, ha, rfl⟩ := Option.map_eq_some_iff.1 he
    exact hx a ha
  refine otherwise (orElse (mapped fun _ _ => trivial) ?_)
  refine orElse (mapped fun _ hm => isInfix_of_opened? hm) ?_
  refine orElse (fun _ hc => leaves_of_chan? hc) ?_
  refine orElse (mapped fun _ hf => isInfix_of_opened? hf) ?_
  refine orElse (mapped fun _ hs => isInfix_of_block? hs) ?_
  exact orElse (mapped fun _ hi => isInfix_of_block? hi) fun _ hp => leaves_of_pointer? hp

/-! ## Names before brackets -/

theorem chan?_ne_name {id : List Char} {h : Head id.length} (hc : chan? id = some h) :
    h ≠ name := by
  unfold chan? at hc
  split at hc
  · cases hc
  · obtain rfl := Option.some.inj hc
    exact fun he => nomatch he

theorem pointer?_ne_name {id : List Char} {h : Head id.length} (hp : pointer? id = some h) :
    h ≠ name := by
  unfold pointer? at hp
  split at hp
  · obtain rfl := Option.some.inj hp
    exact fun he => nomatch he
  · cases hp

/-- What is told to be a name begins with none of the words that tell other types. -/
theorem of_eq_name {id : List Char} (h : of id = name) :
    (opened? "" '[' id = none ∧ opened? "map" '[' id = none ∧ chan? id = none ∧
      opened? "func" '(' id = none) ∧
    block? "struct" id = none ∧ block? "interface" id = none ∧ pointer? id = none := by
  unfold of at h
  cases hs : opened? "" '[' id with
  | some _ => simp [hs] at h
  | none =>
  cases hm : opened? "map" '[' id with
  | some _ => simp [hs, hm] at h
  | none =>
  cases hc : chan? id with
  | some c => exact absurd (by simpa [hs, hm, hc] using h) (chan?_ne_name hc)
  | none =>
  cases hf : opened? "func" '(' id with
  | some _ => simp [hs, hm, hc, hf] at h
  | none =>
  cases hb : block? "struct" id with
  | some _ => simp [hs, hm, hc, hf, hb] at h
  | none =>
  cases hi : block? "interface" id with
  | some _ => simp [hs, hm, hc, hf, hb, hi] at h
  | none =>
  cases hp : pointer? id with
  | some p => exact absurd (by simpa [hs, hm, hc, hf, hb, hi, hp] using h) (pointer?_ne_name hp)
  | none => exact ⟨⟨rfl, rfl, rfl, rfl⟩, rfl, rfl, rfl⟩

/-- A word with no bracket but at its end ends before the brackets of a text or with the first. -/
theorem eq_append_bracket {base u v lead rest : List Char} {c : Char} (hl : '[' ∉ lead)
    (h : base ++ '[' :: u = lead ++ c :: rest) :
    ∃ rest', base ++ '[' :: v = lead ++ c :: rest' := by
  rcases List.append_eq_append_iff.1 h with ⟨more, hlead, hmore⟩ | ⟨more, hbase, hmore⟩
  · cases more with
    | nil =>
      obtain ⟨rfl, -⟩ := List.cons.inj hmore
      exact ⟨v, by rw [hlead, List.append_nil]⟩
    | cons d more =>
      obtain ⟨rfl, -⟩ := List.cons.inj hmore
      exact absurd (by simp [hlead]) hl
  · cases more with
    | nil =>
      obtain ⟨rfl, -⟩ := List.cons.inj hmore
      exact ⟨v, by rw [hbase, List.append_nil]⟩
    | cons d more =>
      obtain ⟨rfl, -⟩ := List.cons.inj hmore
      exact ⟨more ++ '[' :: v, by simp [hbase]⟩

/-- Whether a text is a name does not depend on what stands in its brackets. -/
theorem of_name_bracket {base u : List Char} (h : of (base ++ '[' :: u) = name) (v : List Char) :
    of (base ++ '[' :: v) = name := by
  obtain ⟨⟨hs, hm, hc, hf⟩, hst, hi, hp⟩ := of_eq_name h
  have hopened (lead : String) (c : Char) (hl : '[' ∉ lead.toList)
      (hn : opened? lead c (base ++ '[' :: u) = none) :
      opened? lead c (base ++ '[' :: v) = none := by
    apply opened?_none
    intro rest he
    obtain ⟨rest', he'⟩ := eq_append_bracket (v := u) hl he
    obtain ⟨hle, hsome⟩ := opened?_some he'
    rw [hn] at hsome
    cases hsome
  have hblock (keyword : String) (hk : '[' ∉ keyword.toList)
      (hn : block? keyword (base ++ '[' :: u) = none) :
      block? keyword (base ++ '[' :: v) = none := by
    apply block?_none
    intro pad rest hpad he
    have hl : '[' ∉ keyword.toList ++ pad := by
      intro hmem
      rcases List.mem_append.1 hmem with hmem | hmem
      · exact hk hmem
      · exact absurd (hpad _ hmem) (by decide)
    obtain ⟨rest', he'⟩ := eq_append_bracket (v := u) hl he
    obtain ⟨hle, hsome⟩ := block?_some hpad he'
    rw [hn] at hsome
    cases hsome
  have hchan : chan? (base ++ '[' :: v) = none := by
    apply chan?_none
    intro d rest he
    obtain ⟨lead, hl, hn⟩ := exists_lead_eq d
    rw [hl, List.append_assoc] at he
    obtain ⟨rest', he'⟩ := eq_append_bracket (v := u) hn he
    have hlead : Direction.ofLead? (base ++ '[' :: u) = some (d, rest') := by
      have htext : base ++ '[' :: u = d.lead.toList ++ rest' := by
        rw [he', hl, List.append_assoc]
        rfl
      rw [htext, ofLead?_lead]
    obtain ⟨hle, hsome⟩ := chan?_some hlead
    rw [hc] at hsome
    cases hsome
  have hpointer : pointer? (base ++ '[' :: v) = none := by
    apply pointer?_none
    intro hstar
    obtain ⟨rest, he⟩ := List.head?_eq_some_iff.1 hstar
    obtain ⟨rest', he'⟩ : ∃ rest', base ++ '[' :: u = [] ++ '*' :: rest' :=
      eq_append_bracket (by simp) he
    rw [he'] at hp
    cases hp
  simp [of, hopened "" '[' (by decide) hs, hopened "map" '[' (by decide) hm, hchan,
    hopened "func" '(' (by decide) hf, hblock "struct" (by decide) hst,
    hblock "interface" (by decide) hi, hpointer]

end Head
end TypeIdentity.Literal
