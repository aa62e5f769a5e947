import TypeIdentity.Proofs.Offsets.Tags
import TypeIdentity.Proofs.Scan.Balance

/-! # Quoted strings as tags

A scanner enters quotes with the first character of a quoted string and leaves them with the last,
whatever the string holds.  The scan for brackets and separators heeds a backslash everywhere and
the scan for tags only inside quotes; where no backslash stands outside quotes, the two see the same
quotes, and so a quoted string is found as a tag after any text that closes its own.
-/
namespace TypeIdentity.Scan.Quoting
open Text

/-- The scanner is inside quotes at every place of a text. -/
def Stays : Quoting → List Char → Prop
  | q, [] => q.quoted = true
  | q, c :: rest => q.quoted = true ∧ (q.step c).Stays rest

theorem Stays.quoted {q : Quoting} {text : List Char} (h : q.Stays text) : q.quoted = true := by
  cases text with
  | nil => exact h
  | cons c rest => exact h.1

theorem stays_append {q : Quoting} {u v : List Char} (hu : q.Stays u) (hv : (q.run u).Stays v) :
    q.Stays (u ++ v) := by
  induction u generalizing q with
  | nil => exact hv
  | cons c rest ih => exact ⟨hu.1, ih hu.2 hv⟩

theorem Stays.left {q : Quoting} {u v : List Char} (h : q.Stays (u ++ v)) : q.Stays u := by
  induction u generalizing q with
  | nil => exact h.quoted
  | cons c rest ih => exact ⟨h.1, ih h.2⟩

theorem Stays.run {q : Quoting} {text : List Char} (h : q.Stays text) :
    (q.run text).quoted = true := by
  induction text generalizing q with
  | nil => exact h
  | cons c rest ih => exact ih h.2

theorem stays_plain {ds : List Char} (h : ∀ d ∈ ds, d ≠ '"' ∧ d ≠ '\\') :
    inside.Stays ds := by
  induction ds with
  | nil => rfl
  | cons d rest ih =>
    obtain ⟨hq, hb⟩ := h d (List.mem_cons_self ..)
    have hstep : inside.step d = inside := by simp [inside, step, hq, hb]
    refine ⟨rfl, ?_⟩
    rw [hstep]
    exact ih fun e he => h e (List.mem_cons_of_mem _ he)

theorem stays_quoteChar (c : Char) : inside.Stays (quoteChar c) := by
  rcases quoteChar_form c with ⟨he, hq, hb⟩ | ⟨letter, ds, he, hd⟩
  · rw [he]
    exact stays_plain (by simpa using ⟨hq, hb⟩)
  · rw [he]
    exact ⟨rfl, rfl, stays_plain hd⟩

theorem stays_quoted (text : List Char) : inside.Stays (text.flatMap quoteChar) := by
  induction text with
  | nil => rfl
  | cons c rest ih =>
    rw [List.flatMap_cons]
    refine stays_append (stays_quoteChar c) ?_
    rw [(inside_quoteChar c).2]
    exact ih

/-- After the first character and before the last there are only places inside quotes. -/
theorem exists_stays {s u v : List Char} (h : quote s = u ++ v) (hu : u ≠ []) (hv : v ≠ []) :
    ∃ rest, u = '"' :: rest ∧ inside.Stays rest := by
  obtain ⟨c, rest, rfl⟩ := List.exists_cons_of_ne_nil hu
  obtain ⟨init, d, rfl⟩ := List.eq_nil_or_concat' v |>.resolve_left hv
  obtain ⟨rfl, hbody⟩ : '"' = c ∧ s.flatMap quoteChar ++ ['"'] = rest ++ init ++ [d] := by
    simpa [quote] using h
  have hinit := (List.append_singleton_inj.1 hbody).1
  exact ⟨rest, rfl, (hinit ▸ stays_quoted s).left⟩

theorem quoted_run_quote {s u v : List Char} (h : quote s = u ++ v) :
    (plain.run u).quoted = true ↔ u ≠ [] ∧ v ≠ [] := by
  constructor
  · intro hquoted
    constructor
    · rintro rfl
      cases hquoted
    · rintro rfl
      rw [List.append_nil] at h
      rw [← h, (plain_quote s).2] at hquoted
      cases hquoted
  · rintro ⟨hu, hv⟩
    obtain ⟨rest, rfl, hstays⟩ := exists_stays h hu hv
    exact hstays.run

end TypeIdentity.Scan.Quoting

namespace TypeIdentity.Literal
open Text Scan

/-! ## Two scans of the same quotes -/

namespace TagScan
variable {q : Quoting} {text : List Char}

/-- What the scan for tags knows when the other scan is at `q`, the last quote having been opened
at `start`. -/
def ofQuoting (start : Nat) (q : Quoting) : TagScan :=
  if q.quoted then inside start q.escaped else outside

theorem step_quoted (hq : q.quoted = true) (index start : Nat) (c : Char) :
    (ofQuoting start q).step index c = ofQuoting start (q.step c) := by
  obtain ⟨quoted, escaped⟩ := q
  obtain rfl : quoted = true := hq
  cases escaped with
  | true => rfl
  | false =>
    simp only [ofQuoting, step, Quoting.step, if_true, Bool.false_eq_true, if_false]
    split
    · rfl
    · split <;> rfl

theorem step_plain {c : Char} (hc : c ≠ '\\') (index : Nat) :
    outside.step index c = ofQuoting index (Quoting.plain.step c) := by
  by_cases hquote : c = '"'
  · subst hquote
    rfl
  · simp [step, Quoting.step, Quoting.plain, ofQuoting, hquote, hc]

theorem run_stays (h : q.Stays text) (index start : Nat) :
    (ofQuoting start q).run index text = ofQuoting start (q.run text) := by
  induction text generalizing q index with
  | nil => rfl
  | cons c text ih => rw [run, step_quoted h.1, ih h.2, Quoting.run_cons]

/-- Where no backslash stands outside quotes, both scans see the same quotes. -/
theorem exists_run (hq : q.Settled) (hb : '\\' ∉ q.exposed text) (index start : Nat) :
    ∃ last, (ofQuoting start q).run index text = ofQuoting last (q.run text) := by
  induction text generalizing q index start with
  | nil => exact ⟨start, rfl⟩
  | cons c text ih =>
    obtain ⟨hsettled, hrest⟩ := hq.step hb
    rw [run, Quoting.run_cons]
    cases hquoted : q.quoted with
    | true =>
      rw [step_quoted hquoted]
      exact ih hsettled hrest (index + 1) start
    | false =>
      rw [Quoting.exposed_cons_unquoted hquoted, List.mem_cons, not_or] at hb
      obtain rfl := hq.eq_plain hquoted
      have hstep : (ofQuoting start .plain).step index c = ofQuoting index (Quoting.plain.step c) :=
        step_plain (Ne.symm hb.1) index
      rw [hstep]
      exact ih hsettled hrest (index + 1) index

theorem run_closed (h : QuotesClosed text) (index : Nat) :
    outside.run index text = outside := by
  obtain ⟨last, hlast⟩ := exists_run Quoting.settled_plain h.backslash index 0
  rw [h.run] at hlast
  exact hlast

/-- Within a quoted string the scan for tags is where the other scan is, from its first quote. -/
theorem run_quote_prefix {s u v : List Char} (h : quote s = u ++ v) (index : Nat) :
    outside.run index u = ofQuoting index (Quoting.plain.run u) := by
  by_cases hu : u = []
  · rw [hu]
    rfl
  · by_cases hv : v = []
    · rw [hv, List.append_nil] at h
      rw [← h, run_quote, (Quoting.plain_quote s).2]
      rfl
    · obtain ⟨rest, rfl, hstays⟩ := Quoting.exists_stays h hu hv
      exact run_stays hstays (index + 1) index

end TagScan

/-! ## Quoted strings after other texts -/

/-- Byte offset of the quote that opens the tag of an entry. -/
def tagOffset? (text : List Char) : Option Nat :=
  (tagStart? text).map fun k => utf8Size (text.take k)

theorem tagOffset?_closed {text : List Char} (h : QuotesClosed text) (s : List Char) :
    tagOffset? (text ++ ' ' :: quote s) = some (utf8Size text + 1) := by
  have hsize : utf8Size ((text ++ ' ' :: quote s).take (text.length + 1)) = utf8Size text + 1 := by
    rw [List.take_length_add_append, Offsets.utf8Size_append]
    rfl
  rw [tagOffset?, tagStart?_of_run (TagScan.run_closed h 0) s]
  exact congrArg some hsize

/-- The scan of the bytes finds it there too. -/
theorem trailingQuoted_closed {text : List Char} (h : QuotesClosed text) (s : List Char)
    (hlimit : utf8Size (text ++ ' ' :: quote s) < Offsets.sizeLimit) :
    Offsets.trailingQuoted (text ++ ' ' :: quote s) = pure (some (utf8Size text + 1)) := by
  rw [Offsets.trailingQuoted_eq hlimit]
  exact congrArg pure (tagOffset?_closed h s)

/-- A quoted string is read back; to both scans it is inside quotes from its first character to its
last; and it is the tag of any entry that closes its other quotes and has no backslash outside. -/
theorem quote_opaque (s : List Char) :
    unquote (quote s) = .ok s ∧
      (∀ u v, quote s = u ++ v →
        ((Quoting.plain.run u).quoted = true ↔ u ≠ [] ∧ v ≠ []) ∧
          ∀ index, TagScan.outside.run index u = .ofQuoting index (Quoting.plain.run u)) ∧
      (Quoting.plain.Passes (quote s) ∧ Quoting.plain.run (quote s) = .plain) ∧
      ∀ text, QuotesClosed text →
        tagOffset? (text ++ ' ' :: quote s) = some (utf8Size text + 1) := by
  refine ⟨unquote_quote s, ?_, Quoting.plain_quote s, fun text h => tagOffset?_closed h s⟩
  intro u v h
  exact ⟨Quoting.quoted_run_quote h, TagScan.run_quote_prefix h⟩

/-- A tag with a quote, a backslash and a bell, after a quoted text with an escaped quote. -/
theorem quote_opaque_escapes :
    quote "\"\\\x07é".toList = "\"\\\"\\\\\\aé\"".toList ∧
      unquote "\"\\\"\\\\\\aé\"".toList = .ok "\"\\\x07é".toList ∧
      tagOffset? "é \"a\\\"\" \"\\\"\\\\\\aé\"".toList = some 9 := by
  have hquote : quote "\"\\\x07é".toList = "\"\\\"\\\\\\aé\"".toList := by decide
  obtain ⟨hback, -, -, htag⟩ := quote_opaque "\"\\\x07é".toList
  rw [hquote] at hback htag
  exact ⟨hquote, hback, htag "é \"a\\\"\"".toList (by decide)⟩

end TypeIdentity.Literal
