import Mathlib.Data.List.Induction
import TypeIdentity.Proofs.Guarantee
import TypeIdentity.Proofs.Literal.Transparency

/-! # Interning

Whatever is stored in a table, hand-built literals and literals with ids that are the canonical text
of others included, every stored literal is what the table has for its canonical text.  Parsing
keeps this and loses nothing, also when it fails after literals were stored on the way.
-/
namespace TypeIdentity
open Text Literal

namespace LiteralTable
variable {table after : LiteralTable} {id : String} {lit t u : TypeLiteral}

def Stored (table : LiteralTable) (lit : TypeLiteral) : Prop := ∃ id, table.get? id = some lit

/-- Every stored literal is stored under its canonical text. -/
def Canonical (table : LiteralTable) : Prop :=
  ∀ id lit, table.get? id = some lit → table.get? lit.canonical = some lit

theorem canonical_empty : empty.Canonical := by
  intro id lit h
  simp [empty, get?] at h

theorem Stored.mono (h : table.Stored lit) (hg : table.Grows after) : after.Stored lit := by
  obtain ⟨id, hid⟩ := h
  exact ⟨id, hg id lit hid⟩

theorem Canonical.get? (h : table.Canonical) (hs : table.Stored lit) :
    table.get? lit.canonical = some lit := by
  obtain ⟨id, hid⟩ := hs
  exact h id lit hid

theorem Canonical.eq_iff (h : table.Canonical) (ht : table.Stored t) (hu : table.Stored u) :
    t = u ↔ t.canonical = u.canonical := by
  constructor
  · exact congrArg _
  · intro he
    have hget := h.get? ht
    rw [he, h.get? hu] at hget
    exact (Option.some.inj hget).symm

theorem grows_of_adds (ha : table.Adds after id lit) : table.Grows after := by
  intro key known hk
  rw [ha key, hk, Option.some_or]

/-- A literal may be stored under any id once it is stored under its canonical text. -/
theorem Canonical.add (h : table.Canonical) (ha : table.Adds after id lit)
    (hl : after.get? lit.canonical = some lit) : after.Canonical := by
  intro key known hk
  have hk' := hk
  rw [ha key, Option.or_eq_some_iff] at hk
  rcases hk with hk | ⟨-, hk⟩
  · exact grows_of_adds ha _ _ (h key known hk)
  · split at hk
    · rwa [← Option.some.inj hk]
    · cases hk

/-- Interning stores a literal or finds the one in its place, whose own text may be another. -/
theorem Canonical.intern (h : table.Canonical) (lit : TypeLiteral) :
    (table.intern lit).2.Canonical ∧ table.Grows (table.intern lit).2 ∧
      (table.intern lit).2.Stored (table.intern lit).1 := by
  rw [LiteralTable.intern]
  cases hg : table.get? lit.canonical with
  | some stored =>
    have hkey : table.entries[lit.canonical]? = some stored := hg
    simp only [hkey]
    exact ⟨h, .refl table, _, hg⟩
  | none =>
    have hkey : table.entries[lit.canonical]? = none := hg
    simp only [hkey]
    have hadds := adds_insert hg lit
    have hstored : LiteralTable.get? ⟨table.entries.insert lit.canonical lit⟩ lit.canonical =
        some lit := by
      rw [hadds, hg, if_pos rfl, Option.none_or]
    exact ⟨h.add hadds hstored, grows_of_adds hadds, _, hstored⟩

theorem Canonical.internAs (h : table.Canonical) (id : String) (lit : TypeLiteral) :
    (table.internAs id lit).2.Canonical ∧ table.Grows (table.internAs id lit).2 ∧
      (table.internAs id lit).2.Stored (table.internAs id lit).1 := by
  obtain ⟨hc, hg, hs⟩ := h.intern lit
  have hadds := adds_insertIfNew (table.intern lit).2 id (table.intern lit).1
  have hgrow := grows_of_adds hadds
  exact ⟨hc.add hadds (hgrow _ _ (hc.get? hs)), hg.trans hgrow, hs.mono hgrow⟩

end LiteralTable

/-! ## Parsing -/

namespace ParseTables

/-- Computations that keep the table of literals canonical and lose nothing of it. -/
def interning : Guarantee TableM :=
  .advancing (fun tables => tables.literals.Canonical)
    (fun before after => before.literals.Grows after.literals)
    (fun tables => .refl tables.literals) .trans

variable {options : ParseOptions}

theorem interns_decodePath (token : String) :
    interning.ensures ((services options).decodePath token) fun _ => True := by
  intro tables h
  cases hc : options.useCodec <;> simp only [services, hc]
  · exact ⟨h, .refl _, fun _ _ => trivial⟩
  · exact ⟨h, .refl _, fun _ _ => trivial⟩

theorem interns_share (lit : TypeLiteral) :
    interning.ensures ((services options).share lit) fun _ => True := by
  intro tables h
  cases hl : options.useLiterals <;> simp only [services, hl]
  · exact ⟨h, .refl _, fun _ _ => trivial⟩
  · obtain ⟨hc, hg, -⟩ := h.intern lit
    exact ⟨hc, hg, fun _ _ => trivial⟩

theorem interns_keep (id : String) (lit : TypeLiteral) :
    interning.ensures ((services options).keep id lit) fun _ => True := by
  intro tables h
  cases hl : options.useLiterals <;> simp only [services, hl]
  · exact ⟨h, .refl _, fun _ _ => trivial⟩
  · obtain ⟨hc, hg, -⟩ := h.internAs id lit
    exact ⟨hc, hg, fun _ _ => trivial⟩

theorem interns_known (id : String) :
    interning.ensures ((services options).known id) fun _ => True := by
  intro tables h
  cases hl : options.useLiterals <;> simp only [services, hl] <;>
    exact ⟨h, .refl _, fun _ _ => trivial⟩

theorem interns_throw {α : Type} (e : Error) :
    interning.ensures (throw e : TableM α) fun _ => True := by
  intro tables h
  exact ⟨h, .refl _, fun _ _ => trivial⟩

theorem interns_run {n : Nat} {α : Type}
    {parseText : (text : List Char) → text.length < n → TableM TypeLiteral}
    (hparse : ∀ text h, interning.ensures (parseText text h) fun _ => True) (r : Reading n α) :
    interning.ensures (r.run parseText (services options).decodePath (services options).share)
      fun _ => True := by
  induction r with
  | done a => exact interning.pure trivial
  | fail e => exact interns_throw e
  | parse text h next ih => exact interning.bind (hparse text h) fun a _ => ih a
  | decodePath token next ih => exact interning.bind (interns_decodePath token) fun a _ => ih a
  | share lit next ih => exact interning.bind (interns_share lit) fun a _ => ih a

theorem interns_parseWith (id : List Char) :
    interning.ensures (parseWith (services options) id) fun _ => True := by
  generalize hn : id.length = n
  induction n using Nat.strongRecOn generalizing id with
  | _ n ih =>
    subst hn
    by_cases ht : trim id = []
    · rw [parseWith_blank _ ht]
      exact interns_throw _
    have hparts (part : List Char) (hp : part.length < (trim id).length) :=
      ih part.length (Nat.lt_of_lt_of_le hp (length_trim_le id)) part rfl
    rw [parseWith_text _ ht]
    refine interning.bind (interns_known _) fun hit _ => ?_
    cases hit with
    | some lit => exact interning.pure trivial
    | none => exact interning.bind (interns_run hparts _) fun lit _ => interns_keep _ lit

/-- What a computation returns is stored in the table afterwards. -/
def Stores (x : TableM TypeLiteral) : Prop :=
  ∀ tables : ParseTables, tables.literals.Canonical →
    ∀ lit, (x tables).1 = .ok lit → (x tables).2.literals.Stored lit

theorem stores_keep (hu : options.useLiterals = true) (id : String) (lit : TypeLiteral) :
    Stores ((services options).keep id lit) := by
  intro tables h stored he
  simp only [services, hu, if_true, keep_eq] at he ⊢
  rw [← Except.ok.inj he]
  exact (h.internAs id lit).2.2

theorem Stores.bind {α : Type} {x : TableM α} {f : α → TableM TypeLiteral}
    (hx : interning.ensures x fun _ => True) (hf : ∀ a, Stores (f a)) : Stores (x >>= f) := by
  intro tables h lit he
  obtain ⟨hc, -, -⟩ := hx tables h
  obtain ⟨a, middle, hrun, hstep⟩ := Outcome.exists_step he
  rw [hrun] at hc
  rw [hstep] at he ⊢
  exact hf a middle hc lit he

/-- What is parsed with a table is stored in it. -/
theorem stores_parseWith (hu : options.useLiterals = true) (id : List Char) :
    Stores (parseWith (services options) id) := by
  intro tables h lit he
  by_cases ht : trim id = []
  · rw [parseWith_blank _ ht] at he
    cases he
  have hknown : (services options).known (String.ofList (trim id)) tables =
      (.ok (tables.literals.get? (String.ofList (trim id))), tables) := by
    simp only [services, hu, if_true, known_eq]
  rw [parseWith_text _ ht, Outcome.run_bind hknown] at he ⊢
  cases hg : tables.literals.get? (String.ofList (trim id)) with
  | some stored =>
    rw [hg] at he
    obtain rfl := Except.ok.inj he
    exact ⟨_, hg⟩
  | none =>
    rw [hg] at he
    exact Stores.bind (interns_run (fun part _ => interns_parseWith part) _)
      (stores_keep hu _) tables h lit he

end ParseTables

/-! ## A table in use -/

namespace LiteralTable

/-- What a table can be asked for: to parse an id, alone or with a codec in whatever state, to store
a literal under an id and its canonical text or under the latter only, and to forget everything. -/
inductive Call
  | parse (codec? : Option PathCodec) (id : String)
  | internAs (id : String) (lit : TypeLiteral)
  | intern (lit : TypeLiteral)
  | clear

/-- The literal that a call returns, if it returns one, and the table after the call. -/
def request (table : LiteralTable) : Call → Option TypeLiteral × LiteralTable
  | .parse codec? id =>
    let (answer, tables) := ParseTables.parse ⟨true, codec?.isSome⟩ id ⟨table, codec?.getD .empty⟩
    (answer.toOption, tables.literals)
  | .internAs id lit =>
    let (stored, after) := table.internAs id lit
    (some stored, after)
  | .intern lit =>
    let (stored, after) := table.intern lit
    (some stored, after)
  | .clear => (none, .empty)

def after (table : LiteralTable) (call : Call) : LiteralTable := (table.request call).2

/-- The table after a sequence of calls that began with nothing stored. -/
def reached (calls : List Call) : LiteralTable := calls.foldl after .empty

variable {table : LiteralTable}

theorem eq_ok_of_toOption {α : Type} {x : Except Error α} {a : α} (h : x.toOption = some a) :
    x = .ok a := by
  cases x with
  | error e => cases h
  | ok b => exact congrArg _ (Option.some.inj h)

/-- Only clearing loses entries, and what a call returns is stored afterwards. -/
theorem Canonical.request (h : table.Canonical) (call : Call) :
    (table.request call).2.Canonical ∧ (call ≠ .clear → table.Grows (table.request call).2) ∧
      ∀ lit, (table.request call).1 = some lit → (table.request call).2.Stored lit := by
  cases call with
  | parse codec? id =>
    let options : ParseOptions := ⟨true, codec?.isSome⟩
    let tables : ParseTables := ⟨table, codec?.getD .empty⟩
    obtain ⟨hc, hg, -⟩ := @ParseTables.interns_parseWith options id.toList tables h
    refine ⟨hc, fun _ => hg, fun lit hlit => ?_⟩
    exact ParseTables.stores_parseWith rfl id.toList tables h lit (eq_ok_of_toOption hlit)
  | internAs id lit =>
    obtain ⟨hc, hg, hs⟩ := h.internAs id lit
    exact ⟨hc, fun _ => hg, fun stored he => Option.some.inj he ▸ hs⟩
  | intern lit =>
    obtain ⟨hc, hg, hs⟩ := h.intern lit
    exact ⟨hc, fun _ => hg, fun stored he => Option.some.inj he ▸ hs⟩
  | clear => exact ⟨canonical_empty, fun hne => absurd rfl hne, fun _ he => nomatch he⟩

theorem canonical_reached (calls : List Call) : (reached calls).Canonical := by
  induction calls using List.reverseRecOn with
  | nil => exact canonical_empty
  | append_singleton calls call ih =>
    rw [reached, List.foldl_concat]
    exact (ih.request call).1

/-- As long as the table is not cleared, no entry of it changes. -/
theorem Canonical.grows_foldl (h : table.Canonical) {later : List Call} (hc : .clear ∉ later) :
    table.Grows (later.foldl after table) := by
  induction later generalizing table with
  | nil => exact .refl table
  | cons call later ih =>
    obtain ⟨hcall, hgrow, -⟩ := h.request call
    have hne : call ≠ .clear := fun he => hc (he ▸ List.mem_cons_self ..)
    exact (hgrow hne).trans (ih hcall fun hm => hc (List.mem_cons_of_mem _ hm))

end LiteralTable
end TypeIdentity
