import TypeIdentity.Proofs.Literal.Elements

/-! # Reading names back

A name is cut at its first bracket and at the last point before it.
-/
namespace TypeIdentity.Literal
open Text Scan TypeLiteral Reading

variable {n : Nat} {spell : String → String} {allowed : String → Prop}
  {R : List Char → TypeLiteral → Prop}

theorem splitLastPoint_point {u v : List Char} (hv : '.' ∉ v) :
    splitLastPoint (u ++ '.' :: v) = some (u, v) := by
  have hrev : ∀ c ∈ v.reverse, decide (c ≠ '.') = true := by
    intro c hc
    apply decide_eq_true
    rintro rfl
    exact hv (List.mem_reverse.1 hc)
  have hlast : unqualified (u ++ '.' :: v) = v := by
    rw [unqualified, List.reverse_append, List.reverse_cons, List.append_assoc,
      List.takeWhile_append_of_pos hrev]
    simp
  have hlen : (u ++ '.' :: v).length - v.length - 1 = u.length := by
    simp
    omega
  rw [splitLastPoint, if_pos (by simp), hlast, hlen, List.take_left]

theorem point_not_mem_unqualified (text : List Char) : '.' ∉ unqualified text := by
  intro hm
  have hne := List.mem_takeWhile_imp (List.mem_reverse.1 hm)
  simp at hne

theorem eq_append_of_splitLastPoint {text u v : List Char}
    (h : splitLastPoint text = some (u, v)) : text = u ++ '.' :: v := by
  by_cases hm : '.' ∈ text
  · obtain ⟨rest, hrest⟩ : ∃ rest, text.reverse.dropWhile (· ≠ '.') = '.' :: rest := by
      cases hd : text.reverse.dropWhile (· ≠ '.') with
      | nil =>
        have hnone := List.dropWhile_eq_nil_iff.1 hd '.' (List.mem_reverse.2 hm)
        simp at hnone
      | cons c rest =>
        have hc := List.head?_dropWhile_not (· ≠ '.') text.reverse
        rw [hd] at hc
        obtain rfl : c = '.' := by simpa using hc
        exact ⟨rest, rfl⟩
    have htext : text = rest.reverse ++ '.' :: unqualified text := by
      have hsplit := List.takeWhile_append_dropWhile (p := (· ≠ '.')) (l := text.reverse)
      have hreverse := congrArg List.reverse hsplit
      rw [hrest, List.reverse_append, List.reverse_cons, List.reverse_reverse] at hreverse
      rw [unqualified, List.append_cons]
      exact hreverse.symm
    have hpoint := splitLastPoint_point (u := rest.reverse) (point_not_mem_unqualified text)
    rw [← htext, h] at hpoint
    obtain ⟨rfl, rfl⟩ := Prod.mk.inj (Option.some.inj hpoint)
    exact htext
  · rw [splitLastPoint, if_neg hm] at h
    cases h

theorem splitLastPoint_none {text : List Char} (h : '.' ∉ text) : splitLastPoint text = none :=
  if_neg h

theorem splitTypeArgs_none {id : List Char} (h : firstSpan .square id = .ok none) :
    splitTypeArgs id = .done (id, none) := by
  rw [splitTypeArgs, lift_ok h]
  rfl

theorem splitTypeArgs_span {id base inner : List Char}
    (h : firstSpan .square id = .ok (some ⟨base, inner, []⟩)) :
    ∃ hlt, splitTypeArgs id = .done (base, some ⟨inner, hlt⟩) := by
  have hlen := congrArg List.length (firstSpan_eq_append h)
  refine ⟨by simp at hlen; omega, ?_⟩
  rw [splitTypeArgs, lift_ok h]
  rfl

/-- A name with brackets is read by decoding its path and reading what stands in them. -/
theorem readName_args {base inner path name : List Char} {args : List (List Char)}
    (hspan : firstSpan .square (base ++ '[' :: (inner ++ [']'])) = .ok (some ⟨base, inner, []⟩))
    (hpoint : splitLastPoint base = some (path, name)) (hpath : path ≠ [])
    (hname : isIdentifier name = true) (hargs : splitParts .comma inner = .ok args) :
    ∃ hlt, readName (base ++ '[' :: (inner ++ [']'])) = do
      let path ← .decodePath (String.ofList path) .done
      let read ← subs (args.attachWith (·.length < (base ++ '[' :: (inner ++ [']'])).length) hlt)
      if read = [] then malformed (base ++ '[' :: (inner ++ [']'])) .noTypeArguments
      else return .named path (String.ofList name) read := by
  obtain ⟨hinner, htypeArgs⟩ := splitTypeArgs_span hspan
  obtain ⟨hlt, hparts⟩ := parts_eq hargs hinner
  have hchecked : ¬(path = [] ∨ (!isIdentifier name) = true) := by simp [hpath, hname]
  refine ⟨hlt, ?_⟩
  rw [readName, htypeArgs, done_bind]
  simp only [hpoint]
  rw [if_neg hchecked]
  simp only [hparts, done_bind]
  refine congrArg _ (funext fun token => congrArg _ (funext fun read => ?_))
  cases read <;> rfl

theorem readName_ident {id : List Char} (hord : ∀ c ∈ id, IsOrdinary c) (hp : '.' ∉ id) :
    readName id = readIdent id := by
  have hplain : ∀ c ∈ id, IsPlain c := by
    intro c hc
    exact isPlain_of_isOrdinary (hord c hc)
  rw [readName, splitTypeArgs_none (firstSpan_none hplain), done_bind]
  simp only [splitLastPoint_none hp]
  rfl

theorem yields_basic (b : BasicType) :
    Yields spell allowed R (readName b.name.toList) (shape (.basic b)) := by
  by_cases hb : b = .unsafePointer
  · subst hb
    have hplain : ∀ c ∈ BasicType.unsafePointer.name.toList, IsPlain c := by
      simp [BasicType.name, IsPlain]
    have hpoint : splitLastPoint BasicType.unsafePointer.name.toList =
        some ("unsafe".toList, "Pointer".toList) := by decide
    rw [readName, splitTypeArgs_none (firstSpan_none hplain), done_bind]
    simp only [hpoint]
    rw [if_neg (by decide +kernel), String.ofList_toList, String.ofList_toList]
    exact (Yields.decodePath (.inr ⟨rfl, rfl⟩) (Yields.done "unsafe")).bind (Yields.done _)
  · have hall : ∀ b ∈ BasicType.all, b ≠ .unsafePointer → '.' ∉ b.name.toList := by decide
    have hp := hall b (BasicType.mem_all b) hb
    rw [readName_ident (isOrdinary_basic b) hp, readIdent]
    simp only [String.ofList_toList, BasicType.ofName?_name]
    exact Yields.done _

theorem yields_error : Yields spell allowed R (readName "error".toList) .error := by
  rw [readName_ident (List.all_iff_forall_prop.1 (by decide)) (by decide), readIdent]
  exact Yields.done _

theorem yields_qualified {path name : String} {zs : List (TypeLiteral × TypeLiteral)}
    (hne : path ≠ "") (hok : allowed path) (hpath : PlainPath (spell path))
    (hname : isIdentifier name.toList = true)
    (hpointer : ¬(path = "unsafe" ∧ name = "Pointer" ∧ zs = []))
    (hs : ∀ c ∈ zs, Standalone (c.1.write spell)) (hR : ∀ c ∈ zs, R (c.1.write spell) c.2) :
    Yields spell allowed R (readName (write spell (named path name (zs.map Prod.fst))))
      (named path name (zs.map Prod.snd)) := by
  have hbase : qualified spell path name = (spell path).toList ++ '.' :: name.toList := by
    simp [qualified, hne]
  have hord : ∀ c ∈ qualified spell path name, IsOrdinary c := by
    have hp : ¬(path = "unsafe" ∧ name = "Pointer" ∧ zs.map Prod.fst = []) := by
      simpa using hpointer
    exact (isOrdinary_qualified (.inr ⟨hne, hpath, hname, hp⟩)).2
  have hplain : ∀ c ∈ qualified spell path name, IsPlain c := by
    intro c hc
    exact isPlain_of_isOrdinary (hord c hc)
  have hpoint : splitLastPoint (qualified spell path name) =
      some ((spell path).toList, name.toList) := by
    rw [hbase]
    exact splitLastPoint_point (point_not_mem_of_isIdentifier hname)
  have hempty : (spell path).toList ≠ [] := by simpa using hpath.nonempty
  cases zs with
  | nil =>
    rw [List.map_nil, write_named_nil, readName, splitTypeArgs_none (firstSpan_none hplain), done_bind]
    simp only [hpoint]
    rw [if_neg (by simp [hempty, hname]), String.ofList_toList, String.ofList_toList]
    apply (Yields.decodePath (.inl ⟨hne, hok, hpath, rfl⟩) (Yields.done path)).bind
    rw [if_neg fun h => hpointer ⟨h.1, h.2, rfl⟩]
    exact Yields.done _
  | cons z rest =>
    have halone : ∀ t ∈ (z :: rest).map Prod.fst, Standalone (t.write spell) := by
      intro t ht
      obtain ⟨c, hc, rfl⟩ := List.mem_map.1 ht
      exact hs c hc
    have hsplit := splitParts_writeList (padding_nil .comma) halone
    rw [texts_eq] at hsplit
    obtain ⟨hp, hread⟩ := readName_args (firstSpan_bracket hplain (nested_args halone) []) hpoint
      hempty hname hsplit
    rw [write_named_args path name (by simp), hread, String.ofList_toList, String.ofList_toList]
    apply (Yields.decodePath (.inl ⟨hne, hok, hpath, rfl⟩) (Yields.done path)).bind
    apply (yields_subs hR hp).bind
    rw [if_neg (by simp)]
    exact Yields.done _

/-! ## Named types -/

theorem yields_named {path name : String} {zs : List (TypeLiteral × TypeLiteral)}
    (h : NameWellFormed spell path name (zs.map Prod.fst)) (hok : path ≠ "" → allowed path)
    (hs : ∀ c ∈ zs, Standalone (c.1.write spell)) (hR : ∀ c ∈ zs, R (c.1.write spell) c.2) :
    Yields spell allowed R (level (write spell (named path name (zs.map Prod.fst))))
      (named path name (zs.map Prod.snd)) := by
  obtain ⟨hne, hord⟩ := isOrdinary_qualified h
  obtain ⟨tail, htext, ht⟩ := write_named_eq spell path name (zs.map Prod.fst)
  have hhead : Head.of (write spell (named path name (zs.map Prod.fst))) = .name := by
    have hshape : (qualified spell path name).head? ≠ some '*' ∧
        qualified spell path name ≠ "map".toList := by
      rcases h with ⟨rfl, rfl, -⟩ | ⟨hp, hpath, -, -⟩
      · have he : qualified spell "" "error" = "error".toList := rfl
        rw [he]
        exact ⟨by decide, by decide⟩
      · have hempty : (spell path).toList ≠ [] := by simpa using hpath.nonempty
        rw [qualified, if_neg hp]
        refine ⟨?_, fun hm => ?_⟩
        · obtain ⟨c, rest, hc⟩ := List.exists_cons_of_ne_nil hempty
          have hstar := hpath.noStar
          rw [hc] at hstar ⊢
          simpa using hstar
        · have hpoint : '.' ∈ "map".toList := by rw [← hm]; simp
          exact absurd hpoint (by decide)
    rw [htext]
    exact Head.of_name hord hne hshape.1 hshape.2 ht
  rw [level, hhead]
  simp only []
  rcases h with ⟨rfl, rfl, hnil⟩ | ⟨hp, hpath, hname, hpointer⟩
  · obtain rfl : zs = [] := List.map_eq_nil_iff.1 hnil
    have he : write spell (named "" "error" []) = "error".toList := by
      rw [write_named_nil]
      rfl
    rw [List.map_nil, he]
    exact yields_error
  · exact yields_qualified hp (hok hp) hpath hname (by simpa using hpointer) hs hR

end TypeIdentity.Literal
