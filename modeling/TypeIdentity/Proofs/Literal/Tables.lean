import TypeIdentity.Literal.Table
import TypeIdentity.Proofs.Literal.RoundTrip
import TypeIdentity.Proofs.PathCodec.States

/-! # Sound tables

A table is sound when it keeps every literal under its canonical text only.  As the canonical
rendering is injective, such a table answers with the very literal that is asked for, and parsing
with it and with a codec reads a literal back and leaves the table sound.
-/
namespace TypeIdentity
open Text Literal TypeLiteral Reading

/-- Not the token of a path. -/
def Unmarked (path : String) : Prop := ¬PathCodec.tokenMark.toList <+: path.toList

instance : DecidablePred Unmarked := fun path =>
  inferInstanceAs (Decidable (¬PathCodec.tokenMark.toList <+: path.toList))

namespace TypeLiteral
variable {t u : TypeLiteral}

/-- What is read back from its canonical text whatever has been read before. -/
structure Portable (t : TypeLiteral) : Prop where
  wellFormed : t.WellFormed
  clear : t.ClearParams
  unmarked : t.Everywhere fun u => Unmarked u.path

theorem Portable.inside (h : t.Portable) : ∀ c ∈ t.children, c.Portable := by
  intro c hc
  exact ⟨h.wellFormed.inside c hc, h.clear.inside c hc, h.unmarked.inside c hc⟩

theorem Portable.legible (h : t.Portable) : t.Legible id Unmarked :=
  ⟨h.wellFormed, h.clear, h.unmarked.imp fun _ hu _ => hu⟩

/-- Read back from its own canonical text. -/
def Stable (t : TypeLiteral) : Prop := parse t.canonical = .ok t

instance : DecidablePred Stable := fun _ => inferInstanceAs (Decidable (_ = _))

theorem stable_of_wellFormed (h : t.WellFormed) (hc : t.ClearParams) : t.Stable := by
  have hl : t.Legible id fun _ => True := ⟨h, hc, h.imp fun _ _ _ => trivial⟩
  exact returns_parseWith faithful_plain hl (trim_render h)

theorem Stable.eq_of_canonical (ht : t.Stable) (hu : u.Stable) (h : t.canonical = u.canonical) :
    t = u := by
  rw [Stable, h, hu] at ht
  exact (Except.ok.inj ht).symm

theorem canonical_injective (ht : t.WellFormed) (hct : t.ClearParams) (hu : u.WellFormed)
    (hcu : u.ClearParams) (h : t.canonical = u.canonical) : t = u :=
  (stable_of_wellFormed ht hct).eq_of_canonical (stable_of_wellFormed hu hcu) h

theorem Portable.eq_of_canonical (ht : t.Portable) (hu : u.Portable)
    (h : t.canonical = u.canonical) : t = u :=
  canonical_injective ht.wellFormed ht.clear hu.wellFormed hu.clear h

end TypeLiteral

namespace LiteralTable
variable {table : LiteralTable} {id : String} {t : TypeLiteral}

/-- A literal is stored under an id that has none yet. -/
def Adds (table after : LiteralTable) (id : String) (t : TypeLiteral) : Prop :=
  ∀ key, after.get? key = (table.get? key).or (if id = key then some t else none)

theorem adds_insertIfNew (table : LiteralTable) (id : String) (t : TypeLiteral) :
    table.Adds ⟨table.entries.insertIfNew id t⟩ id t := by
  intro key
  simp only [get?, Std.HashMap.getElem?_insertIfNew, beq_iff_eq, Std.HashMap.mem_iff_isSome_getElem?]
  by_cases hk : id = key
  · subst hk
    cases table.entries[id]? <;> simp
  · simp [hk]

theorem adds_insert (h : table.get? id = none) (t : TypeLiteral) :
    table.Adds ⟨table.entries.insert id t⟩ id t := by
  intro key
  simp only [get?, Std.HashMap.getElem?_insert, beq_iff_eq] at h ⊢
  by_cases hk : id = key
  · subst hk
    simp [h]
  · simp [hk]

/-- Every literal is kept under its canonical text. -/
def Sound (table : LiteralTable) : Prop :=
  ∀ id lit, table.get? id = some lit → lit.Portable ∧ lit.canonical = id

theorem sound_empty : empty.Sound := by
  intro id lit h
  simp [empty, get?] at h

theorem Sound.get?_canonical (h : table.Sound) (ht : t.Portable) :
    table.get? t.canonical = none ∨ table.get? t.canonical = some t := by
  cases hg : table.get? t.canonical with
  | none => exact .inl rfl
  | some lit =>
    obtain ⟨hl, hc⟩ := h _ _ hg
    rw [hl.eq_of_canonical ht hc]
    exact .inr rfl

theorem Sound.insert (h : table.Sound) (ht : t.Portable) :
    Sound ⟨table.entries.insert t.canonical t⟩ := by
  intro id lit hg
  by_cases hid : t.canonical = id
  · obtain rfl : t = lit := by simpa [get?, Std.HashMap.getElem?_insert, hid] using hg
    exact ⟨ht, hid⟩
  · apply h id lit
    simpa [get?, Std.HashMap.getElem?_insert, hid] using hg

theorem Sound.intern (h : table.Sound) (ht : t.Portable) :
    ∃ after, table.intern t = (t, after) ∧ after.Sound ∧ after.get? t.canonical = some t := by
  rcases h.get?_canonical ht with hn | hs
  · have hkey : table.entries[t.canonical]? = none := hn
    refine ⟨⟨table.entries.insert t.canonical t⟩, ?_, h.insert ht, ?_⟩
    · simp only [LiteralTable.intern, hkey]
    · simp [get?]
  · have hkey : table.entries[t.canonical]? = some t := hs
    exact ⟨table, by simp only [LiteralTable.intern, hkey], h, hs⟩

theorem Sound.internAs (h : table.Sound) (ht : t.Portable) :
    ∃ after, table.internAs t.canonical t = (t, after) ∧ after.Sound := by
  obtain ⟨after, he, hs, hg⟩ := h.intern ht
  refine ⟨⟨after.entries.insertIfNew t.canonical t⟩, by simp only [LiteralTable.internAs, he], ?_⟩
  intro id lit hl
  apply hs id lit
  have hmem : t.canonical ∈ after.entries := by
    have hkey : after.entries[t.canonical]? = some t := hg
    exact Std.HashMap.mem_iff_isSome_getElem?.2 (by rw [hkey]; rfl)
  have hold : (after.entries.insertIfNew t.canonical t)[id]? = some lit := hl
  rwa [Std.HashMap.getElem?_insertIfNew, if_neg fun h => h.2 hmem] at hold

end LiteralTable

/-! ## Parsing with tables -/

namespace ParseTables

def outcome : Outcome TableM := .preserving fun tables => tables.literals.Sound

theorem portable_of_legible {t : TypeLiteral} (h : t.Legible id Unmarked) : t.Portable := by
  refine ⟨h.wellFormed, h.clear, h.paths.imp fun u hu => ?_⟩
  by_cases he : u.path = ""
  · rw [he]
    decide
  · exact hu he

theorem known_eq (id : String) (tables : ParseTables) :
    known id tables = (.ok (tables.literals.get? id), tables) := rfl

theorem share_eq (t : TypeLiteral) (tables : ParseTables) :
    share t tables = (.ok (tables.literals.intern t).1,
      { tables with literals := (tables.literals.intern t).2 }) := rfl

theorem keep_eq (id : String) (t : TypeLiteral) (tables : ParseTables) :
    keep id t tables = (.ok (tables.literals.internAs id t).1,
      { tables with literals := (tables.literals.internAs id t).2 }) := rfl

/-- A path that is no token stands for itself. -/
theorem decodePath_eq {path token : String} (hs : Spells id Unmarked path token)
    (tables : ParseTables) :
    (services ⟨true, true⟩).decodePath token tables = (.ok path, tables) := by
  have hplain : Unmarked token ∧ token = path := by
    rcases hs with ⟨-, hu, -, rfl⟩ | ⟨rfl, rfl⟩
    · exact ⟨hu, rfl⟩
    · exact ⟨by decide, rfl⟩
  obtain ⟨hu, rfl⟩ := hplain
  change ((tables.codec.unwrap token).1, { tables with codec := (tables.codec.unwrap token).2 }) = _
  rw [PathCodec.unwrap_of_not_mark hu]

/-- The services that use the tables keep to the literals they are given. -/
theorem faithful_services :
    Faithful outcome (services ⟨true, true⟩) id Unmarked (Printed id Unmarked) where
  known {_ t} ht _ k b hnone hsome tables h := by
    obtain ⟨hl, rfl⟩ := ht
    rw [← render_eq]
    have hget := h.get?_canonical (portable_of_legible hl)
    have hrun := Outcome.run_bind (f := k) (known_eq t.canonical tables)
    rcases hget with hn | hs
    · rw [hn] at hrun
      obtain ⟨after, he, ha⟩ := hnone tables h
      exact ⟨after, hrun.trans he, ha⟩
    · rw [hs] at hrun
      obtain ⟨after, he, ha⟩ := hsome tables h
      exact ⟨after, hrun.trans he, ha⟩
  decodePath hs tables h := ⟨tables, decodePath_eq hs tables, h⟩
  share {_ t} ht tables h := by
    obtain ⟨after, he, ha, -⟩ := h.intern (portable_of_legible ht.1)
    refine ⟨{ tables with literals := after }, ?_, ha⟩
    exact (share_eq t tables).trans (by rw [he])
  keep {_ t} ht tables h := by
    obtain ⟨hl, rfl⟩ := ht
    rw [← render_eq]
    obtain ⟨after, he, ha⟩ := h.internAs (portable_of_legible hl)
    refine ⟨{ tables with literals := after }, ?_, ha⟩
    exact (keep_eq t.canonical t tables).trans (by rw [he])

/-- Parsing the canonical text of a portable literal with sound tables yields the literal. -/
theorem parse_canonical_tables {t : TypeLiteral} (h : t.Portable) {tables : ParseTables}
    (hs : tables.literals.Sound) :
    ∃ after, ParseTables.parse ⟨true, true⟩ t.canonical tables = (.ok t, after) ∧
      after.literals.Sound :=
  returns_parseWith faithful_services h.legible (trim_render h.wellFormed) tables hs

end ParseTables

/-! ## Readings that fail -/

namespace Reading
variable {n : Nat} {α : Type}

/-- The text that a reading asks for first. -/
def first? : Reading n α → Option (List Char)
  | parse text _ _ => some text
  | _ => none

/-- The failure of a reading that asks for nothing. -/
def error? : Reading n α → Option Error
  | fail e => some e
  | _ => none

end Reading

namespace ParseTables
variable {tables : ParseTables} {text part : List Char} {e : Error}

theorem parseWith_empty (ht : tables.literals = .empty) (hne : trim text ≠ []) {answer}
    (hr : ((level (trim text)).run (fun part _ => parseWith (services ⟨true, true⟩) part)
      (services ⟨true, true⟩).decodePath (services ⟨true, true⟩).share) tables = (.error e, answer)) :
    parseWith (services ⟨true, true⟩) text tables = (.error e, answer) := by
  have hknown : known (String.ofList (trim text)) tables = (.ok none, tables) := by
    rw [known_eq, ht]
    simp [LiteralTable.empty, LiteralTable.get?]
  rw [parseWith]
  simp only [if_neg hne]
  exact (Outcome.run_bind hknown).trans (Outcome.run_bind_error hr)

theorem parseWith_error (ht : tables.literals = .empty) (hne : trim text ≠ [])
    (he : (level (trim text)).error? = some e) :
    parseWith (services ⟨true, true⟩) text tables = (.error e, tables) := by
  apply parseWith_empty ht hne
  revert he
  generalize level (trim text) = r
  intro he
  cases r <;> cases he
  rfl

theorem parseWith_first (ht : tables.literals = .empty) (hne : trim text ≠ [])
    (hf : (level (trim text)).first? = some part)
    (hp : parseWith (services ⟨true, true⟩) part tables = (.error e, tables)) :
    parseWith (services ⟨true, true⟩) text tables = (.error e, tables) := by
  apply parseWith_empty ht hne
  revert hf
  generalize level (trim text) = r
  intro hf
  cases r <;> cases hf
  exact Outcome.run_bind_error hp

theorem parse_parentParam_empty (ht : tables.literals = .empty) :
    parse ⟨true, true⟩ parentParam.canonical tables =
      (.error (.unsupported (.unresolvedParameter "T")), tables) := by
  have hname : parseWith (services ⟨true, true⟩) "T".toList tables =
      (.error (.unsupported (.unresolvedParameter "T")), tables) :=
    parseWith_error ht (by decide +kernel) (by decide +kernel)
  exact parseWith_first ht (by decide +kernel) (by decide +kernel) hname

end ParseTables
end TypeIdentity
