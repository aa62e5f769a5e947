import TypeIdentity.Literal.Table
import TypeIdentity.Proofs.Offsets.Readers
import TypeIdentity.Proofs.Offsets.Tokens

/-! # Parsing runs into no fault

Parsing with all offsets, counters and lengths checked does what parsing does, with tables and
without, in whatever state they are.  So no slice is out of range or begins inside a character, no
offset and no counter leaves its range, and every text that is parsed on the way is shorter than the
one it stands in.  An id that is refused is malformed or denotes no type that a literal can be.
-/
namespace TypeIdentity.Offsets
open Text Literal

/-- What is left of a computation that a fault may have cut off. -/
def settle {m : Type → Type} [Monad m] {α : Type} (result : Except Fault α) : Checked m α :=
  ExceptT.mk (pure result)

/-- Parses an id; blanks around it and around its parts do not matter. -/
def parseWith {m : Type → Type} [Monad m] [MonadExceptOf Error m]
    (services : ParseServices (Checked m)) (id : List Char) : Checked m TypeLiteral := do
  let text := trim id
  if text = [] then throwThe Error (.malformed "" .emptyId)
  else
    match ← services.known (String.ofList text) with
    | some lit => return lit
    | none =>
      let result ← (level text).run.run (fun part _ => parseWith services part)
        services.decodePath services.share
      services.keep (String.ofList text) (← settle result)
termination_by id.length
decreasing_by
  have : text.length ≤ id.length := length_trim_le id
  omega

def decodePath (token : String) : Checked TableM String := ExceptT.mk fun tables =>
  let (answer, codec) := unwrap tables.codec token
  (answer, { tables with codec })

/-- Meets the requests of the parser from the chosen tables. -/
def services (options : ParseOptions) : ParseServices (Checked TableM) where
  known id := ExceptT.lift ((ParseTables.services options).known id)
  decodePath token := if options.useCodec then decodePath token else return token
  share lit := ExceptT.lift ((ParseTables.services options).share lit)
  keep id lit := ExceptT.lift ((ParseTables.services options).keep id lit)

def parse (options : ParseOptions) (id : String) (tables : ParseTables) :
    Except Error (Except Fault TypeLiteral) × ParseTables :=
  parseWith (services options) id.toList tables

/-! ## What parsing does -/

/-- A checked computation does what another one does, which refuses only what it may. -/
structure Agrees {α : Type} (x : Checked TableM α) (y : TableM α) : Prop where
  faultless : x = ExceptT.lift y
  rejects : ∀ tables e, (y tables).1 = .error e → e.IsRejection

namespace Agrees
variable {α β : Type}

theorem pure (a : α) : Agrees (Pure.pure a) (Pure.pure a) where
  faultless := rfl
  rejects _ _ he := nomatch he

/-- What may be looked up in the tables, or kept in them, refuses nothing. -/
theorem optional {used : Bool} {y : TableM α} {a : α} (hy : ∀ tables e, (y tables).1 ≠ .error e) :
    Agrees (ExceptT.lift (if used then y else Pure.pure a)) (if used then y else Pure.pure a) where
  faultless := rfl
  rejects tables e he := by
    cases used with
    | true => exact absurd he (hy tables e)
    | false => cases he

theorem fail {e : Error} (h : e.IsRejection) :
    Agrees (throwThe Error e : Checked TableM α) (throw e) where
  faultless := rfl
  rejects _ _ he := Except.error.inj he ▸ h

theorem bind {x : Checked TableM α} {y : TableM α} {f : α → Checked TableM β} {g : α → TableM β}
    (hx : Agrees x y) (hf : ∀ a, Agrees (f a) (g a)) : Agrees (x >>= f) (y >>= g) where
  faultless := by
    rw [hx.faultless, lift_bind]
    exact bind_congr fun a => (hf a).faultless
  rejects tables e he := by
    cases hy : y tables with
    | mk answer after =>
      cases answer with
      | error e' =>
        rw [Outcome.run_bind_error hy] at he
        refine hx.rejects tables e ?_
        rw [hy, Except.error.inj he]
      | ok a =>
        rw [Outcome.run_bind hy] at he
        exact (hf a).rejects after e he

end Agrees

theorem agrees_run {whole : List Char} {α : Type}
    {parseChecked : (text : List Char) → text.length < whole.length → Checked TableM TypeLiteral}
    {parsePlain : (text : List Char) → text.length < whole.length → TableM TypeLiteral}
    {decodeChecked : String → Checked TableM String} {decodePlain : String → TableM String}
    {shareChecked : TypeLiteral → Checked TableM TypeLiteral}
    {sharePlain : TypeLiteral → TableM TypeLiteral}
    (hparse : ∀ text h, utf8Size text < utf8Size whole →
      Agrees (parseChecked text h) (parsePlain text h))
    (hdecode : ∀ token, utf8Size token.toList ≤ utf8Size whole →
      Agrees (decodeChecked token) (decodePlain token))
    (hshare : ∀ lit, Agrees (shareChecked lit) (sharePlain lit))
    {x : Checked (Reading whole.length) α} {y : Reading whole.length α} (h : Follows whole x y) :
    Agrees (x.run.run parseChecked decodeChecked shareChecked >>= settle)
      (y.run parsePlain decodePlain sharePlain) := by
  induction h with
  | done a => exact Agrees.pure a
  | fail h => exact Agrees.fail h
  | parse hsize hlength _ ih =>
    have hnext := Agrees.bind (hparse _ hlength hsize) ih
    rwa [← bind_assoc] at hnext
  | decodePath hsize _ ih =>
    have hnext := Agrees.bind (hdecode _ hsize) ih
    rwa [← bind_assoc] at hnext
  | share lit _ ih =>
    have hnext := Agrees.bind (hshare lit) ih
    rwa [← bind_assoc] at hnext

section
variable (options : ParseOptions)

theorem agrees_known (id : String) :
    Agrees ((services options).known id) ((ParseTables.services options).known id) :=
  Agrees.optional fun _ _ he => nomatch he

theorem agrees_share (lit : TypeLiteral) :
    Agrees ((services options).share lit) ((ParseTables.services options).share lit) :=
  Agrees.optional fun _ _ he => nomatch he

theorem agrees_keep (id : String) (lit : TypeLiteral) :
    Agrees ((services options).keep id lit) ((ParseTables.services options).keep id lit) :=
  Agrees.optional fun _ _ he => nomatch he

theorem isRejection_unwrap {codec : PathCodec} {token : String} {e : Error}
    (h : (codec.unwrap token).1 = .error e) : e.IsRejection := by
  unfold PathCodec.unwrap at h
  split at h
  · cases h
  split at h
  · cases h
  split at h
  · cases h
  split at h <;> cases h
  trivial

theorem agrees_decodePath {token : String} (hlimit : utf8Size token.toList < sizeLimit) :
    Agrees ((services options).decodePath token)
      ((ParseTables.services options).decodePath token) := by
  rw [services, ParseTables.services]
  simp only
  split
  · refine ⟨?_, fun tables e he => isRejection_unwrap he⟩
    funext tables
    have hplain : (ExceptT.lift (ParseTables.decodePath token) : Checked TableM String) tables =
        (Except.ok <$> (tables.codec.unwrap token).1,
          { tables with codec := (tables.codec.unwrap token).2 }) := Outcome.run_map _ _ _
    have hchecked : decodePath token tables = ((unwrap tables.codec token).1,
        { tables with codec := (unwrap tables.codec token).2 }) := rfl
    rw [hplain, hchecked, unwrap_eq _ hlimit]
  · exact Agrees.pure token

/-- Parsing keeps to the texts it finds in an id, all of which are shorter than it. -/
theorem agrees_parse {id : List Char} (hlimit : utf8Size id < sizeLimit) :
    Agrees (parseWith (services options) id)
      (TypeIdentity.parseWith (ParseTables.services options) id) := by
  induction hn : id.length using Nat.strongRecOn generalizing id with
  | ind n ih =>
  have htext := sizeLimit_of_isInfix (isInfix_trim id) hlimit
  rw [parseWith, TypeIdentity.parseWith]
  split
  · exact Agrees.fail trivial
  refine (agrees_known options _).bind fun hit => ?_
  cases hit with
  | some lit => exact Agrees.pure lit
  | none =>
    simp only
    rw [← bind_assoc]
    refine (agrees_run ?_ ?_ ?_ (follows_level htext)).bind fun lit => agrees_keep options _ lit
    · intro text hlength hsize
      have hshorter : text.length < n := hn ▸ Nat.lt_of_lt_of_le hlength (length_trim_le id)
      exact ih text.length hshorter (Nat.lt_trans hsize htext) rfl
    · exact fun token hsize => agrees_decodePath options (Nat.lt_of_le_of_lt hsize htext)
    · exact agrees_share options

/-- Parsing an id of less than 2³¹ bytes ends with a literal or with a rejection of the id.  It ends in
the same way, and leaves the same tables, when every slice, offset, counter and length is checked. -/
theorem parse_faultless (id : String) (tables : ParseTables)
    (hlimit : utf8Size id.toList < sizeLimit) :
    ∃ after,
      (∃ lit, ParseTables.parse options id tables = (.ok lit, after) ∧
        parse options id tables = (.ok (.ok lit), after)) ∨
      ∃ e : Error, e.IsRejection ∧ ParseTables.parse options id tables = (.error e, after) ∧
        parse options id tables = (.error e, after) := by
  have hagrees : Agrees (parseWith (services options) id.toList)
      (TypeIdentity.parseWith (ParseTables.services options) id.toList) :=
    agrees_parse options hlimit
  have hchecked : parse options id tables =
      (Except.ok <$> (ParseTables.parse options id tables).1,
        (ParseTables.parse options id tables).2) := by
    rw [parse, hagrees.faultless]
    exact Outcome.run_map _ _ _
  cases hplain : ParseTables.parse options id tables with
  | mk answer after =>
    rw [hplain] at hchecked
    refine ⟨after, ?_⟩
    cases answer with
    | ok lit => exact .inl ⟨lit, rfl, hchecked⟩
    | error e =>
      have hrejected : e.IsRejection := hagrees.rejects tables e (congrArg Prod.fst hplain)
      exact .inr ⟨e, hrejected, rfl, hchecked⟩

end

/-- A backslash before a character of two bytes, where one byte is passed over. -/
def escapedLetterSample : String :=
  "struct \x7b Größe *map[string]p.T[int] \"json:\\\"größe\\\"\\é\" \x7d"

theorem parse_faultless_escapedLetter : utf8Size escapedLetterSample.toList < sizeLimit ∧
    ∃ after,
      (∃ lit, ParseTables.parse ⟨true, true⟩ escapedLetterSample {} = (.ok lit, after) ∧
        parse ⟨true, true⟩ escapedLetterSample {} = (.ok (.ok lit), after)) ∨
      ∃ e : Error, e.IsRejection ∧
        ParseTables.parse ⟨true, true⟩ escapedLetterSample {} = (.error e, after) ∧
        parse ⟨true, true⟩ escapedLetterSample {} = (.error e, after) :=
  ⟨by decide +kernel, parse_faultless ⟨true, true⟩ escapedLetterSample {} (by decide +kernel)⟩

end TypeIdentity.Offsets
