import TypeIdentity.Proofs.Literal.Tables

/-! # When a table is transparent

Parsing with a table of literals gives the answers of parsing without one as long as every literal
that is read on the way is the one its canonical text denotes.  The invariant of the table is that
each of its entries is such a literal and what parsing its id yields; the induction follows the
parser, and runs it with the table, without it, and with a log of the literals it reads.
-/
namespace TypeIdentity
open Text Literal

/-- Parsing without a table that notes the literals it reads. -/
abbrev LoggedM := ExceptT Error (StateM (List TypeLiteral))

def noteLiteral (lit : TypeLiteral) : LoggedM TypeLiteral := fun log => (.ok lit, log ++ [lit])

/-- Nothing is remembered; every literal that a table would be given is noted. -/
def ParseServices.noting : ParseServices LoggedM where
  known _ := pure none
  decodePath := pure
  share := noteLiteral
  keep _ := noteLiteral

/-- The literals that are read on the way through an id, up to the first failure. -/
def literalsRead (id : String) : List TypeLiteral := (parseWith .noting id.toList []).2

namespace LiteralTable
variable {table : LiteralTable} {t : TypeLiteral} {id : String}

/-- Every entry is what its id denotes, and also what its own canonical text denotes. -/
def Truthful (table : LiteralTable) : Prop :=
  ∀ id lit, table.get? id = some lit → parse id = .ok lit ∧ lit.Stable

/-- Nothing that was stored is lost. -/
def Grows (before after : LiteralTable) : Prop :=
  ∀ id lit, before.get? id = some lit → after.get? id = some lit

theorem Grows.refl (table : LiteralTable) : table.Grows table := fun _ _ h => h

theorem Grows.trans {a b c : LiteralTable} (hab : a.Grows b) (hbc : b.Grows c) : a.Grows c :=
  fun id lit h => hbc id lit (hab id lit h)

theorem truthful_empty : empty.Truthful := by
  intro id lit h
  simp [empty, get?] at h

theorem Truthful.add {after : LiteralTable} (h : table.Truthful) (ha : table.Adds after id t)
    (hid : parse id = .ok t) (ht : t.Stable) : after.Truthful ∧ table.Grows after := by
  constructor
  · intro key lit hk
    rw [ha key, Option.or_eq_some_iff] at hk
    rcases hk with hk | ⟨-, hk⟩
    · exact h key lit hk
    · split at hk
      · next he => exact ⟨he ▸ Option.some.inj hk ▸ hid, Option.some.inj hk ▸ ht⟩
      · cases hk
  · intro key lit hk
    rw [ha key, hk, Option.some_or]

theorem Truthful.intern (h : table.Truthful) (ht : t.Stable) :
    ∃ after, table.intern t = (t, after) ∧ after.Truthful ∧ table.Grows after := by
  rw [LiteralTable.intern]
  cases hg : table.get? t.canonical with
  | none =>
    have hkey : table.entries[t.canonical]? = none := hg
    simp only [hkey]
    exact ⟨_, rfl, h.add (adds_insert hg t) ht ht⟩
  | some stored =>
    have hkey : table.entries[t.canonical]? = some stored := hg
    obtain rfl : t = stored := Except.ok.inj (ht.symm.trans (h _ _ hg).1)
    simp only [hkey]
    exact ⟨_, rfl, h, .refl table⟩

theorem Truthful.internAs (h : table.Truthful) (hid : parse id = .ok t) (ht : t.Stable) :
    ∃ after, table.internAs id t = (t, after) ∧ after.Truthful ∧ table.Grows after ∧
      after.get? id = some t := by
  obtain ⟨middle, he, hm, hgrow⟩ := h.intern ht
  have hadds := adds_insertIfNew middle id t
  obtain ⟨ha, hgrow'⟩ := hm.add hadds hid ht
  rw [LiteralTable.internAs, he]
  refine ⟨_, rfl, ha, hgrow.trans hgrow', ?_⟩
  rw [hadds id]
  cases hg : middle.get? id with
  | none => simp
  | some lit => rw [Option.some_or, Except.ok.inj (hid.symm.trans (hm _ _ hg).1)]

end LiteralTable

/-! ## One step of the parser -/

section Parsing
variable {m : Type → Type} [Monad m] [MonadExceptOf Error m] (services : ParseServices m)
  {id : List Char}

theorem parseWith_blank (h : trim id = []) :
    parseWith services id = throw (.malformed "" .emptyId) := by
  rw [parseWith]
  simp only [if_pos h]

theorem parseWith_text (h : trim id ≠ []) :
    parseWith services id = services.known (String.ofList (trim id)) >>= fun hit =>
      match hit with
      | some lit => pure lit
      | none => (level (trim id)).run (fun part _ => parseWith services part)
          services.decodePath services.share >>= services.keep (String.ofList (trim id)) := by
  rw [parseWith]
  exact if_neg h

end Parsing

/-- Without tables an id is read as its level. -/
theorem parseWith_plain {id : List Char} (h : trim id ≠ []) :
    parseWith .plain id =
      (level (trim id)).run (fun part _ => parseWith .plain part) .ok .ok := by
  rw [parseWith_text _ h]
  exact bind_pure (m := Except Error) _

theorem parse_trim {id : List Char} (h : trim id ≠ []) :
    parse (String.ofList (trim id)) = parseWith .plain id := by
  rw [parse, String.toList_ofList, parseWith_plain (by rwa [trim_trim]), trim_trim,
    parseWith_plain h]

/-! ## In lockstep -/

/-- What parsing without tables answers, the log does not change, and a truthful table does not
change either while the literals noted are stable ones. -/
def InStep {α : Type} (plain : Except Error α) (noting : LoggedM α) (cached : TableM α) : Prop :=
  ∀ log, ∃ noted, noting log = (plain, log ++ noted) ∧
    ((∀ u ∈ noted, u.Stable) → ∀ tables : ParseTables, tables.literals.Truthful →
      ∃ after : ParseTables, cached tables = (plain, after) ∧ after.literals.Truthful ∧
        tables.literals.Grows after.literals)

namespace InStep
variable {α β : Type}

theorem pure (a : α) : InStep (.ok a) (Pure.pure a) (Pure.pure a) := by
  intro log
  refine ⟨[], by rw [List.append_nil]; rfl, fun _ tables h => ?_⟩
  exact ⟨tables, rfl, h, .refl _⟩

theorem throw (e : Error) :
    InStep (.error e : Except Error α) (MonadExcept.throw e) (MonadExcept.throw e) := by
  intro log
  refine ⟨[], by rw [List.append_nil]; rfl, fun _ tables h => ?_⟩
  exact ⟨tables, rfl, h, .refl _⟩

theorem bind {plain : Except Error α} {noting : LoggedM α} {cached : TableM α}
    {f : α → Except Error β} {g : α → LoggedM β} {k : α → TableM β}
    (hx : InStep plain noting cached)
    (hf : ∀ a, plain = .ok a → InStep (f a) (g a) (k a)) :
    InStep (plain >>= f) (noting >>= g) (cached >>= k) := by
  intro log
  obtain ⟨noted, hn, hc⟩ := hx log
  cases plain with
  | error e =>
    refine ⟨noted, Outcome.run_bind_error hn, fun hs tables h => ?_⟩
    obtain ⟨after, he, ha⟩ := hc hs tables h
    exact ⟨after, Outcome.run_bind_error he, ha⟩
  | ok a =>
    obtain ⟨more, hn', hc'⟩ := hf a rfl (log ++ noted)
    refine ⟨noted ++ more, ?_, fun hs tables h => ?_⟩
    · rw [← List.append_assoc]
      exact (Outcome.run_bind hn).trans hn'
    · obtain ⟨middle, he, hm, hgrow⟩ := hc (fun u hu => hs u (by simp [hu])) tables h
      obtain ⟨after, he', ha, hgrow'⟩ := hc' (fun u hu => hs u (by simp [hu])) middle hm
      exact ⟨after, (Outcome.run_bind he).trans he', ha, hgrow.trans hgrow'⟩

theorem share (lit : TypeLiteral) : InStep (.ok lit) (noteLiteral lit) (ParseTables.share lit) := by
  intro log
  refine ⟨[lit], rfl, fun hs tables h => ?_⟩
  obtain ⟨literals, he, ha⟩ := h.intern (hs lit (by simp))
  refine ⟨{ tables with literals }, ?_, ha⟩
  rw [ParseTables.share_eq, he]

theorem keep {id : String} {lit : TypeLiteral} (hid : parse id = .ok lit) :
    InStep (.ok lit) (noteLiteral lit) (ParseTables.keep id lit) := by
  intro log
  refine ⟨[lit], rfl, fun hs tables h => ?_⟩
  obtain ⟨literals, he, ha, hgrow, -⟩ := h.internAs hid (hs lit (by simp))
  refine ⟨{ tables with literals }, ?_, ha, hgrow⟩
  rw [ParseTables.keep_eq, he]

/-- Readings whose texts are parsed in lockstep are run in lockstep. -/
theorem run {n : Nat} {plain : (text : List Char) → text.length < n → Except Error TypeLiteral}
    {noting : (text : List Char) → text.length < n → LoggedM TypeLiteral}
    {cached : (text : List Char) → text.length < n → TableM TypeLiteral}
    (hparse : ∀ text h, InStep (plain text h) (noting text h) (cached text h))
    (r : Reading n α) :
    InStep (r.run plain .ok .ok) (r.run noting Pure.pure noteLiteral)
      (r.run cached Pure.pure ParseTables.share) := by
  induction r with
  | done a => exact pure a
  | fail e => exact throw e
  | parse text h next ih => exact (hparse text h).bind fun a _ => ih a
  | decodePath token next ih => exact (pure token).bind fun a _ => ih a
  | share lit next ih => exact (share lit).bind fun a _ => ih a

/-- A hit is what the id denotes, and otherwise the level of the id is read in lockstep. -/
theorem parseWith (id : List Char) : InStep (parseWith .plain id) (parseWith .noting id)
    (parseWith (ParseTables.services ⟨true, false⟩) id) := by
  generalize hn : id.length = n
  induction n using Nat.strongRecOn generalizing id with
  | _ n ih =>
    subst hn
    by_cases ht : trim id = []
    · rw [parseWith_blank _ ht, parseWith_blank _ ht, parseWith_blank _ ht]
      exact throw _
    have hparts (part : List Char) (hp : part.length < (trim id).length) :=
      ih part.length (Nat.lt_of_lt_of_le hp (length_trim_le id)) part rfl
    have hmiss := (run hparts (level (trim id))).bind fun lit hlit =>
      keep ((parse_trim ht).trans ((parseWith_plain ht).trans hlit))
    have hplain := (bind_pure (m := Except Error) _).trans (parseWith_plain ht).symm
    rw [parseWith_text .noting ht, parseWith_text (ParseTables.services _) ht, ← hplain]
    intro log
    obtain ⟨noted, hn, hc⟩ := hmiss log
    refine ⟨noted, hn, fun hs tables h => ?_⟩
    have hknown := ParseTables.known_eq (String.ofList (trim id)) tables
    cases hg : tables.literals.get? (String.ofList (trim id)) with
    | none =>
      obtain ⟨after, he, ha⟩ := hc hs tables h
      rw [hg] at hknown
      exact ⟨after, (Outcome.run_bind hknown).trans he, ha⟩
    | some lit =>
      have hlit := (h _ _ hg).1
      rw [parse_trim ht, ← hplain] at hlit
      rw [hg] at hknown
      exact ⟨tables, (Outcome.run_bind hknown).trans (congrArg (·, tables) hlit.symm), h, .refl _⟩

end InStep

/-! ## Any sequence of ids -/

namespace ParseTables
variable {tables : ParseTables} {id : String} {t u : TypeLiteral}

/-- The answers to ids parsed one after another, each with the tables that the one before left. -/
def answers (options : ParseOptions) : ParseTables → List String → List (Except Error TypeLiteral)
  | _, [] => []
  | tables, id :: ids =>
    let (answer, after) := parse options id tables
    answer :: answers options after ids

theorem parse_of_stable (h : ∀ u ∈ literalsRead id, u.Stable) (ht : tables.literals.Truthful) :
    ∃ after, parse ⟨true, false⟩ id tables = (TypeIdentity.parse id, after) ∧
      after.literals.Truthful ∧ tables.literals.Grows after.literals := by
  obtain ⟨noted, hn, hc⟩ := InStep.parseWith id.toList []
  rw [literalsRead, hn, List.nil_append] at h
  exact hc h tables ht

/-- The table is transparent for ids on whose way only stable literals are read. -/
theorem answers_of_stable (ids : List String) (h : ∀ id ∈ ids, ∀ u ∈ literalsRead id, u.Stable)
    (codec : PathCodec) :
    answers ⟨true, false⟩ ⟨.empty, codec⟩ ids = ids.map TypeIdentity.parse := by
  have hall : ∀ tables : ParseTables, tables.literals.Truthful →
      answers ⟨true, false⟩ tables ids = ids.map TypeIdentity.parse := by
    induction ids with
    | nil => exact fun _ _ => rfl
    | cons id ids ih =>
      intro tables ht
      obtain ⟨after, he, ha, -⟩ := parse_of_stable (h id (List.mem_cons_self ..)) ht
      rw [answers, he, List.map_cons]
      exact congrArg _ (ih (fun id' hm => h id' (List.mem_cons_of_mem _ hm)) after ha)
  exact hall _ LiteralTable.truthful_empty

/-- Aliases, blanks, and failures before and after something has been read. -/
def stableIds : List String :=
  [" []byte", "[]uint8", "map[a/b.Key]", "func(x/y.T, ...any) T", "struct { x/y.T; A any }", ""]

theorem answers_stableIds :
    (∀ id ∈ stableIds, ∀ u ∈ literalsRead id, u.Stable) ∧
      answers ⟨true, false⟩ ⟨.empty, .empty⟩ stableIds = stableIds.map TypeIdentity.parse := by
  have hs : ∀ id ∈ stableIds, ∀ u ∈ literalsRead id, u.Stable := by decide +kernel
  exact ⟨hs, answers_of_stable stableIds hs .empty⟩

/-! ## Literals that print alike -/

/-- A literal is noted last, after what is read inside it; until then a truthful table follows. -/
theorem level_of_parse (hp : TypeIdentity.parse id = .ok u) :
    trim id.toList ≠ [] ∧ ∃ noted, literalsRead id = noted ++ [u] ∧
      ((∀ v ∈ noted, v.Stable) → ∀ tables : ParseTables, tables.literals.Truthful →
        ∃ after : ParseTables, (level (trim id.toList)).run
            (fun part _ => parseWith (services ⟨true, false⟩) part) Pure.pure share tables =
              (.ok u, after) ∧
          after.literals.Truthful ∧ tables.literals.Grows after.literals) := by
  have hne : trim id.toList ≠ [] := by
    intro he
    rw [TypeIdentity.parse, parseWith_blank _ he] at hp
    cases hp
  have hu := (parseWith_plain hne).symm.trans hp
  obtain ⟨noted, hn, hc⟩ := InStep.run (fun part _ => InStep.parseWith part)
    (level (trim id.toList)) []
  rw [hu, List.nil_append] at hn
  refine ⟨hne, noted, ?_, fun hs tables ht => ?_⟩
  · rw [literalsRead, parseWith_text _ hne]
    exact congrArg Prod.snd (Outcome.run_bind (f := noteLiteral) hn)
  · obtain ⟨after, he, ha⟩ := hc hs tables ht
    exact ⟨after, he.trans (congrArg (·, after) hu), ha⟩

theorem parse_known (hne : trim id.toList ≠ [])
    (hk : tables.literals.get? (String.ofList (trim id.toList)) = some t) :
    parse ⟨true, false⟩ id tables = (.ok t, tables) := by
  have hknown := known_eq (String.ofList (trim id.toList)) tables
  rw [hk] at hknown
  rw [parse, parseWith_text _ hne]
  exact Outcome.run_bind hknown

theorem parse_missing {after : ParseTables} (hne : trim id.toList ≠ [])
    (hm : tables.literals.get? (String.ofList (trim id.toList)) = none)
    (hl : (level (trim id.toList)).run (fun part _ => parseWith (services ⟨true, false⟩) part)
      Pure.pure share tables = (.ok u, after)) :
    parse ⟨true, false⟩ id tables = keep (String.ofList (trim id.toList)) u after := by
  have hknown := known_eq (String.ofList (trim id.toList)) tables
  rw [hm] at hknown
  rw [parse, parseWith_text _ hne]
  exact (Outcome.run_bind hknown).trans (Outcome.run_bind hl)

/-- An id that has been parsed is stored with its literal. -/
theorem get?_of_parse (hs : ∀ v ∈ literalsRead id, v.Stable) (ht : tables.literals.Truthful)
    (hp : TypeIdentity.parse id = .ok t) {after : ParseTables}
    (he : parse ⟨true, false⟩ id tables = (.ok t, after)) :
    after.literals.get? (String.ofList (trim id.toList)) = some t := by
  obtain ⟨hne, noted, hread, hlevel⟩ := level_of_parse hp
  cases hg : tables.literals.get? (String.ofList (trim id.toList)) with
  | some lit =>
    obtain ⟨hlit, rfl⟩ := Prod.mk.inj ((parse_known hne hg).symm.trans he)
    rw [hg, Except.ok.inj hlit]
  | none =>
    obtain ⟨middle, hl, hm, -⟩ := hlevel (fun v hv => hs v (by simp [hread, hv])) tables ht
    rw [parse_missing hne hg hl] at he
    have hkey : TypeIdentity.parse (String.ofList (trim id.toList)) = .ok t :=
      (parse_trim hne).trans hp
    obtain ⟨literals, hi, -, -, hstored⟩ := hm.internAs hkey (hs t (by simp [hread]))
    have hkeep := ParseTables.keep_eq (String.ofList (trim id.toList)) t middle
    rw [hi] at hkeep
    rw [← (Prod.mk.inj (hkeep.symm.trans he)).2]
    exact hstored

/-- An id whose own literal is not stable gets the literal that is stored for its canonical text. -/
theorem parse_shadowed (hs : ∀ v ∈ (literalsRead id).dropLast, v.Stable)
    (hp : TypeIdentity.parse id = .ok u) (ht : tables.literals.Truthful)
    (hg : tables.literals.get? u.canonical = some t) (hne : t ≠ u) :
    (parse ⟨true, false⟩ id tables).1 = .ok t := by
  obtain ⟨hid, noted, hread, hlevel⟩ := level_of_parse hp
  rw [hread, List.dropLast_concat] at hs
  have hmissing : tables.literals.get? (String.ofList (trim id.toList)) = none := by
    cases hk : tables.literals.get? (String.ofList (trim id.toList)) with
    | none => rfl
    | some lit =>
      obtain ⟨hlit, hstable⟩ := ht _ _ hk
      obtain rfl : u = lit := Except.ok.inj (hp.symm.trans ((parse_trim hid).symm.trans hlit))
      exact absurd (Except.ok.inj ((ht _ _ hg).1.symm.trans hstable)) hne
  obtain ⟨after, hl, -, hgrow⟩ := hlevel hs tables ht
  have hkey : after.literals.entries[u.canonical]? = some t := hgrow _ _ hg
  rw [parse_missing hid hmissing hl, keep_eq, LiteralTable.internAs, LiteralTable.intern]
  simp only [hkey]

def boxField (name : String) : TypeLiteral :=
  .shape (.struct [⟨name, .named "x/y" "Box" [.shape (.basic .int)], "", true⟩])

/-- An embedded field may be given another name than its type has, but is printed without it. -/
theorem answers_boxField :
    answers ⟨true, false⟩ ⟨.empty, .empty⟩
        ["struct \x7b x/y.Box[int] \x7d", "struct \x7b Foo = x/y.Box[int] \x7d"] =
      [.ok (boxField "Box"), .ok (boxField "Box")] ∧
    TypeIdentity.parse "struct \x7b Foo = x/y.Box[int] \x7d" = .ok (boxField "Foo") ∧
    boxField "Foo" ≠ boxField "Box" := by
  have hfirst : TypeIdentity.parse "struct \x7b x/y.Box[int] \x7d" = .ok (boxField "Box") := by
    decide +kernel
  have hsecond : TypeIdentity.parse "struct \x7b Foo = x/y.Box[int] \x7d" =
      .ok (boxField "Foo") := by
    decide +kernel
  have hread : ∀ v ∈ literalsRead "struct \x7b x/y.Box[int] \x7d", v.Stable := by decide +kernel
  have hread' : ∀ v ∈ (literalsRead "struct \x7b Foo = x/y.Box[int] \x7d").dropLast, v.Stable := by
    decide +kernel
  have hne : boxField "Foo" ≠ boxField "Box" := by simp [boxField]
  have hkey : String.ofList (trim "struct \x7b x/y.Box[int] \x7d".toList) =
      (boxField "Foo").canonical := by
    decide +kernel
  have hempty : (ParseTables.mk .empty .empty).literals.Truthful := LiteralTable.truthful_empty
  obtain ⟨after, he, ha, -⟩ := parse_of_stable hread hempty
  rw [hfirst] at he
  have hstored := get?_of_parse hread hempty hfirst he
  rw [hkey] at hstored
  have hshadow := parse_shadowed hread' hsecond ha hstored hne.symm
  refine ⟨?_, hsecond, hne⟩
  rw [answers, he]
  simp only [answers, hshadow]

end ParseTables
end TypeIdentity
