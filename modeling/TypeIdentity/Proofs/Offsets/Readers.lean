import TypeIdentity.Proofs.Literal.Heads
import TypeIdentity.Proofs.Offsets.Following

/-! # Every level is followed

One lemma for each kind of type: what is read off the bytes of an id follows what is read off its
characters.
-/
namespace TypeIdentity.Offsets
open Text Scan Literal

variable {whole : List Char}

theorem follows_readSequence (hlimit : utf8Size whole < sizeLimit) :
    Follows whole (readSequence whole) (Literal.readSequence whole) := by
  rw [readSequence, Literal.readSequence]
  refine Follows.span hlimit fun b hb htext => ?_
  obtain ⟨-, hafter⟩ := inside_span List.infix_rfl htext
  simp only [OffsetSpan.of, sliceBehind_span hlimit htext, pure_bind]
  refine Follows.ite (.fail trivial) ((hafter.ask _).bind fun elem => ?_)
  cases trim b.inner with
  | nil => exact .done _
  | cons c rest =>
    simp only
    cases readNumeral 10 wordBound (c :: rest) with
    | ok n => exact .done _
    | error e => exact .fail trivial

theorem follows_readMap {rest : List Char} (hlimit : utf8Size whole < sizeLimit)
    (hrest : rest <:+: whole) (hlength : rest.length ≤ whole.length) :
    Follows whole (readMap whole rest) (Literal.readMap whole ⟨rest, hlength⟩) := by
  have hle := sizeLimit_of_isInfix hrest hlimit
  rw [readMap, Literal.readMap]
  refine Follows.span hle fun b hb htext => ?_
  obtain ⟨hinner, hafter⟩ := inside_span hrest htext
  simp only [OffsetSpan.of, sliceBehind_span hle htext, pure_bind]
  refine Follows.ite (.fail trivial) ((hinner.ask _).bind fun key => ?_)
  exact (hafter.ask _).bind fun elem => .done _

theorem follows_readChan {elem : List Char} (dir : Direction) (hlimit : utf8Size whole < sizeLimit)
    (helem : Inside whole elem) (hlength : elem.length < whole.length) :
    Follows whole (readChan whole dir elem) (Literal.readChan whole dir ⟨elem, hlength⟩) := by
  have htext : Inside whole (trim elem) := helem.part (isInfix_trim elem)
  rw [readChan, Literal.readChan]
  refine Follows.ite ?_ ((htext.ask _).bind fun elem => .done _)
  refine Follows.span (htext.limit hlimit) fun b hb hparts => ?_
  obtain ⟨hinner, -⟩ := inside_span htext.1 hparts
  rw [endsText_eq hparts, pure_bind]
  exact Follows.ends ((hinner.ask _).bind fun elem => .done _) (.fail trivial)

/-! ## Signatures -/

theorem follows_readParam (id : List Char) {p : List Char} (hp : Inside whole p)
    (hlength : p.length < whole.length) :
    Follows whole (readParam whole id p) (Literal.readParam id ⟨p, hlength⟩) := by
  rw [readParam, Literal.readParam]
  exact Follows.ite (.fail trivial) (hp.ask _)

theorem follows_readLastParam {p : List Char} (hp : Inside whole p)
    (hlength : p.length < whole.length) :
    Follows whole (readLastParam whole p) (Literal.readLastParam ⟨p, hlength⟩) := by
  rw [readLastParam, Literal.readLastParam]
  split
  · next hnone =>
    split
    · exact (hp.ask _).bind fun t => .done _
    · next elem helem =>
      rw [hnone] at helem
      cases helem
  · next elem helem =>
    have helem' : Inside whole elem := hp.part (isSuffix_of_after? helem).isInfix
    split
    · next hnone =>
      rw [hnone] at helem
      cases helem
    · next other hother =>
      obtain rfl := Option.some.inj (helem.symm.trans hother)
      refine (helem'.ask _).bind fun t => ?_
      exact .share _ fun shared => .done _

theorem follows_readParams (id : List Char) {ps : List (List Char)}
    {hp : ∀ p ∈ ps, p.length < whole.length} (hi : ∀ p ∈ ps, Inside whole p) :
    Follows whole (readParams whole id ps)
      (Literal.readParams id (ps.attachWith (·.length < whole.length) hp)) := by
  rw [readParams, Literal.readParams]
  rcases List.eq_nil_or_concat' ps with rfl | ⟨init, p, rfl⟩
  · exact .done _
  · simp only [List.attachWith_append, List.attachWith_cons, List.attachWith_nil,
      List.dropLast_concat, List.getLast?_concat]
    refine Follows.bind (Follows.mapM fun q hm => ?_) fun before => ?_
    · exact follows_readParam id (hi q (List.mem_append_left _ hm)) _
    · exact (follows_readLastParam (hi p (by simp)) _).bind fun last => .done _

theorem follows_readResults (id : List Char) {text : List Char} (hlimit : utf8Size whole < sizeLimit)
    (ht : Inside whole text) (hlength : text.length < whole.length) :
    Follows whole (readResults whole id text) (Literal.readResults id text hlength) := by
  rw [readResults, Literal.readResults]
  refine Follows.ite ?_ (Follows.ite (.done []) ((ht.ask _).bind fun t => .done _))
  refine Follows.span (ht.limit hlimit) fun b hb hparts => ?_
  obtain ⟨hinner, -⟩ := inside_span ht.1 hparts
  rw [endsText_eq hparts, pure_bind]
  refine Follows.ends ?_ (.fail trivial)
  exact Follows.parts hinner hlimit _ fun ps hp hi => Follows.subs hi

theorem follows_readSignature (id : List Char) {sig : List Char}
    (hlimit : utf8Size whole < sizeLimit) (hsig : sig <:+: whole)
    (hlength : sig.length ≤ whole.length) :
    Follows whole (readSignature whole id sig) (Literal.readSignature id ⟨sig, hlength⟩) := by
  have hle := sizeLimit_of_isInfix hsig hlimit
  rw [readSignature, Literal.readSignature]
  refine Follows.span hle fun b hb htext => ?_
  obtain ⟨hinner, hafter⟩ := inside_span hsig htext
  have hbefore : b.openOffset ≠ 0 ↔ b.before ≠ [] :=
    not_congr ⟨utf8Size_eq_zero, fun h => by rw [Span.openOffset, h]; rfl⟩
  simp only [OffsetSpan.of, hbefore, sliceBehind_span hle htext, pure_bind]
  refine Follows.ite (.fail trivial) ?_
  refine Follows.parts hinner hlimit _ fun ps hp hi => ?_
  refine (follows_readParams id hi).bind fun params => ?_
  exact (follows_readResults id hlimit (hafter.part (isInfix_trim b.after)) _).bind fun outs => .done _

/-! ## Blocks -/

theorem Follows.block {block : List Char} (keyword : String) (hlimit : utf8Size whole < sizeLimit)
    (hblock : block <:+: whole) (hlength : block.length ≤ whole.length) {β : Type}
    {f : List Char → Checked (Reading whole.length) β}
    {g : Below whole.length → Reading whole.length β}
    (hf : ∀ body hlength, Inside whole body → Follows whole (f body) (g ⟨body, hlength⟩)) :
    Follows whole (insideBlock whole keyword block >>= f)
      (Literal.insideBlock whole keyword ⟨block, hlength⟩ >>= g) := by
  have hle := sizeLimit_of_isInfix hblock hlimit
  rw [insideBlock, Literal.insideBlock, bind_assoc, bind_assoc]
  refine Follows.span hle fun b hb htext => ?_
  obtain ⟨hinner, -⟩ := inside_span hblock htext
  rw [endsText_eq htext, pure_bind]
  simp only
  by_cases hend : b.after = []
  · rw [if_pos (decide_eq_true hend), if_neg fun hne => hne hend]
    exact hf b.inner _ hinner
  · rw [if_neg fun ht => hend (of_decide_eq_true ht), if_pos hend]
    exact .fail trivial

theorem follows_readField (hlimit : utf8Size whole < sizeLimit) {entry : List Char}
    (hentry : Inside whole entry) (hlength : entry.length < whole.length) :
    Follows whole (readField whole entry) (Literal.readField whole ⟨entry, hlength⟩) := by
  rw [readField, Literal.readField, fieldEntry_eq (hentry.limit hlimit)]
  refine Follows.lift (fun _ he => isRejection_fieldEntry he) fun e he => ?_
  have htype : Inside whole e.type := hentry.part (isInfix_of_fieldEntry he)
  refine (htype.ask _).bind fun type => ?_
  cases e.name with
  | some name => exact Follows.ite (.done _) (.fail trivial)
  | none =>
    simp only [embeddedName_eq, map_pure, pure_bind]
    exact Follows.ite (.done _) (.fail trivial)

theorem follows_readMethod (hlimit : utf8Size whole < sizeLimit) {entry : List Char}
    (hentry : Inside whole entry) (hlength : entry.length < whole.length) :
    Follows whole (readMethod whole entry) (Literal.readMethod ⟨entry, hlength⟩) := by
  have hcut : entry = entry.takeWhile (· ≠ '(') ++ entry.dropWhile (· ≠ '(') :=
    List.takeWhile_append_dropWhile.symm
  have hsig : entry.dropWhile (· ≠ '(') <:+: whole :=
    (List.dropWhile_suffix _).isInfix.trans hentry.1
  rw [readMethod, Literal.readMethod, firstOffset?_eq]
  by_cases hnone : entry.dropWhile (· ≠ '(') = []
  · simp only [if_pos hnone]
    rw [if_pos (.inl hnone)]
    exact .fail trivial
  simp only [if_neg hnone, sliceTo_eq hcut rfl, sliceFrom_eq hcut rfl, pure_bind]
  by_cases hname : isIdentifier (entry.takeWhile (· ≠ '(')) = true
  · have hmethod : ¬(entry.dropWhile (· ≠ '(') = [] ∨
        (!isIdentifier (entry.takeWhile (· ≠ '('))) = true) := by
      rw [hname]
      exact fun h => h.elim hnone Bool.false_ne_true
    rw [if_pos hname, if_neg hmethod]
    exact (follows_readSignature entry hlimit hsig _).bind fun sig => .done _
  · rw [if_neg hname, if_pos (.inr (by rw [Bool.eq_false_iff.2 hname]; rfl))]
    exact .fail trivial

/-! ## Names -/

theorem follows_readIdent (id : List Char) :
    Follows whole (ExceptT.lift (readIdent id)) (readIdent id) := by
  rw [readIdent]
  split
  · exact .done _
  split
  · exact .done _
  split
  · exact .done _
  split
  · exact .fail trivial
  split
  · exact .fail trivial
  · exact .fail trivial

theorem splitLastPoint_eq {n : Nat} {text : List Char} (hlimit : utf8Size text < sizeLimit) :
    splitLastPoint text = (pure (Literal.splitLastPoint text) : Checked (Reading n) _) := by
  rw [splitLastPoint]
  cases hcut : Literal.splitLastPoint text with
  | none =>
    have hm : '.' ∉ text := by
      intro hm
      rw [Literal.splitLastPoint, if_pos hm] at hcut
      cases hcut
    rw [lastOffset?_none hm]
  | some p =>
    obtain ⟨htext, hoffset⟩ := lastOffset?_of_splitLastPoint hcut
    rw [hoffset]
    simp only [sliceTo_eq htext rfl, sliceBehind_eq hlimit rfl htext rfl, pure_bind]

/-- A name without type arguments is its own base; otherwise the base is what stands before them. -/
theorem Follows.typeArgs (hlimit : utf8Size whole < sizeLimit) {β : Type}
    {f : List Char × Option (List Char) → Checked (Reading whole.length) β}
    {g : List Char × Option (Below whole.length) → Reading whole.length β}
    (hnone : Follows whole (f (whole, none)) (g (whole, none)))
    (hsome : ∀ base args hlength, base <:+: whole → Inside whole args →
      Follows whole (f (base, some args)) (g (base, some ⟨args, hlength⟩))) :
    Follows whole (splitTypeArgs whole >>= f) (Literal.splitTypeArgs whole >>= g) := by
  rw [splitTypeArgs, Literal.splitTypeArgs, bind_assoc, bind_assoc, firstSpan_eq hlimit, reading_map]
  refine Follows.lift (fun _ he => isRejection_firstSpan he) fun found hfound => ?_
  cases found with
  | none => exact hnone
  | some b =>
    have htext := firstSpan_eq_append hfound
    have hbase : b.before <:+: whole := ⟨[], _, htext.symm⟩
    obtain ⟨hinner, -⟩ := inside_span List.infix_rfl htext
    simp only [Option.map_some, endsText_eq htext, pure_bind]
    by_cases hend : b.after = []
    · rw [if_pos (decide_eq_true hend), if_neg fun hne => hne hend]
      have hslice : sliceTo whole (OffsetSpan.of b).start =
          (pure b.before : Checked (Reading whole.length) _) := sliceTo_eq htext rfl
      rw [hslice, pure_bind, pure_bind]
      exact hsome b.before b.inner _ hbase hinner
    · rw [if_neg fun ht => hend (of_decide_eq_true ht), if_pos hend]
      exact .fail trivial

theorem size_path {base path name : List Char} (hbase : base <:+: whole)
    (h : Literal.splitLastPoint base = some (path, name)) :
    utf8Size (String.ofList path).toList ≤ utf8Size whole := by
  rw [String.toList_ofList]
  refine utf8Size_le_of_isInfix (List.IsInfix.trans ⟨[], '.' :: name, ?_⟩ hbase)
  exact (eq_append_of_splitLastPoint h).symm

theorem follows_readName (hlimit : utf8Size whole < sizeLimit) :
    Follows whole (readName whole) (Literal.readName whole) := by
  rw [readName, Literal.readName]
  refine Follows.typeArgs hlimit ?_ fun base args hlength hbase hargs => ?_
  · simp only [splitLastPoint_eq hlimit, pure_bind]
    cases hcut : Literal.splitLastPoint whole with
    | none => exact follows_readIdent whole
    | some p =>
      refine Follows.ite (.fail trivial) (.decodePath (size_path List.infix_rfl hcut) fun path => ?_)
      exact Follows.ite (.done _) (.done _)
  · have hle := sizeLimit_of_isInfix hbase hlimit
    simp only [splitLastPoint_eq hle, pure_bind]
    cases hcut : Literal.splitLastPoint base with
    | none => exact .fail trivial
    | some p =>
      refine Follows.ite (.fail trivial) (.decodePath (size_path hbase hcut) fun path => ?_)
      refine Follows.parts hargs hlimit _ fun ps hp hi => (Follows.subs hi).bind fun ts => ?_
      cases ts with
      | nil => exact .fail trivial
      | cons t ts => exact .done _

/-! ## The levels of an id -/

theorem follows_level (hlimit : utf8Size whole < sizeLimit) :
    Follows whole (level whole) (Literal.level whole) := by
  have hleaves := Head.leaves_of whole
  rw [level, Literal.level]
  cases hhead : Head.of whole with
  | sequence => exact follows_readSequence hlimit
  | map rest =>
    rw [hhead] at hleaves
    exact follows_readMap hlimit hleaves rest.2
  | chan dir elem =>
    rw [hhead] at hleaves
    exact follows_readChan dir hlimit ⟨hleaves, elem.2⟩ elem.2
  | func sig =>
    rw [hhead] at hleaves
    exact (follows_readSignature whole hlimit hleaves sig.2).bind fun s => .done _
  | struct block =>
    rw [hhead] at hleaves
    refine Follows.block "struct" hlimit hleaves block.2 fun body hlength hbody => ?_
    refine Follows.parts hbody hlimit _ fun ps hp hi => ?_
    refine (Follows.mapM fun p hm => follows_readField hlimit (hi p hm) _).bind fun fs => .done _
  | interface block =>
    rw [hhead] at hleaves
    refine Follows.block "interface" hlimit hleaves block.2 fun body hlength hbody => ?_
    refine Follows.parts hbody hlimit _ fun ps hp hi => ?_
    refine (Follows.mapM fun p hm => follows_readMethod hlimit (hi p hm) _).bind fun ms => .done _
  | pointer elem =>
    rw [hhead] at hleaves
    exact (Inside.ask ⟨hleaves, elem.2⟩ _).bind fun t => .done _
  | name => exact follows_readName hlimit

end TypeIdentity.Offsets
