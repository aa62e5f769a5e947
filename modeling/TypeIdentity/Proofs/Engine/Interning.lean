import TypeIdentity.Proofs.Engine.Calls
import TypeIdentity.Proofs.Literal.Interning

/-! # Interning in the engine

The engine keeps one literal for each canonical text, however ids are parsed and types looked at in
between, and remembers for a type only a literal that it keeps.  So what it hands out until it is
reset can be compared by canonical texts.
-/
namespace TypeIdentity.Engine.Memory
open Promotion
variable {store : Store} {memory : Memory} {t : HostType} {lit : TypeLiteral}

/-- Every literal that is kept or remembered is the one kept for its canonical text. -/
structure Steady (memory : Memory) : Prop where
  canonical : memory.tables.literals.Canonical
  identities : ∀ (t : HostType) (lit : TypeLiteral), memory.identities[t]? = some lit →
    memory.tables.literals.Stored lit

/-- Computations of steady memories, which stay steady and keep their literals. -/
def interning : Guarantee EngineM :=
  .advancing Steady (fun before after => before.tables.literals.Grows after.tables.literals)
    (fun memory => .refl memory.tables.literals) .trans

theorem steady_fresh (config : Config) : Steady { config } where
  canonical := LiteralTable.canonical_empty
  identities := by simp

/-- Whatever the literals grow to, those that are remembered stay stored. -/
theorem Steady.grow (h : memory.Steady) {after : Memory}
    (hi : after.identities = memory.identities) (hc : after.tables.literals.Canonical)
    (hg : memory.tables.literals.Grows after.tables.literals) : after.Steady where
  canonical := hc
  identities t lit hl := (h.identities t lit (hi ▸ hl)).mono hg

/-! ## Steps of the engine -/

theorem interns_lift {α : Type} (x : Except Error α) :
    interning.ensures (liftM x : EngineM α) fun _ => True := by
  intro memory h
  cases x <;> exact ⟨h, .refl _, fun _ _ => trivial⟩

theorem interns_parseWithCodec (codec? : Option PathCodec) (id : String) :
    interning.ensures (parseWithCodec codec? id) fun _ => True := by
  intro memory h
  have hparse := @ParseTables.interns_parseWith ⟨true, true⟩ id.toList
    { memory.tables with codec := codec?.getD memory.tables.codec } h.canonical
  obtain ⟨hc, hg, -⟩ := hparse
  exact ⟨h.grow rfl hc hg, hg, fun _ _ => trivial⟩

/-- A literal that was built is kept, and what is remembered for its type is kept too. -/
theorem Steady.settle (h : memory.Steady) (t : HostType) (lit : TypeLiteral) :
    ((share lit >>= remember t) memory).2.Steady ∧
      memory.tables.literals.Grows ((share lit >>= remember t) memory).2.tables.literals ∧
      ∀ found, ((share lit >>= remember t) memory).1 = .ok found →
        ((share lit >>= remember t) memory).2.tables.literals.Stored found := by
  obtain ⟨hc, hg, hs⟩ := h.canonical.intern lit
  rw [Outcome.run_bind (share_eq lit memory), remember_eq]
  refine ⟨⟨hc, ?_⟩, hg, ?_⟩
  · intro t' known hk
    dsimp only at hk
    rw [Std.HashMap.getElem?_insertIfNew] at hk
    split at hk
    · exact Option.some.inj hk ▸ hs
    · exact (h.identities t' known hk).mono hg
  · intro found hf
    obtain rfl := Except.ok.inj hf
    dsimp only
    cases hk : memory.identities[t]? with
    | none => exact hs
    | some known => exact (h.identities t known hk).mono hg

theorem Steady.missed (h : memory.Steady) : memory.missed.Steady := ⟨h.canonical, h.identities⟩

theorem lasting_interning : Lasting interning where
  lift := interns_lift
  get h memory hm := h memory memory hm
  count _ _ h := ⟨⟨h.canonical, h.identities⟩, .refl _, fun _ _ => trivial⟩
  codec _ _ h := ⟨⟨h.canonical, h.identities⟩, .refl _, fun _ _ => trivial⟩
  parse := interns_parseWithCodec
  settle t lit memory h := by
    obtain ⟨hs, hg, -⟩ := h.settle t lit
    exact ⟨hs, hg, fun _ _ => trivial⟩

/-! ## Literals that are handed out -/

/-- The literals in the answer of a computation are stored afterwards. -/
def Stores {α : Type} (x : EngineM α) (lits : α → List TypeLiteral) : Prop :=
  ∀ memory : Memory, memory.Steady → ∀ a, (x memory).1 = .ok a →
    ∀ lit ∈ lits a, (x memory).2.tables.literals.Stored lit

theorem Stores.bind {α β : Type} {x : EngineM α} {f : α → EngineM β} {lits : β → List TypeLiteral}
    (hx : interning.ensures x fun _ => True) (hf : ∀ a, Stores (f a) lits) :
    Stores (x >>= f) lits := by
  intro memory h b he
  obtain ⟨hs, -, -⟩ := hx memory h
  obtain ⟨a, middle, hrun, hstep⟩ := Outcome.exists_step he
  rw [hrun] at hs
  rw [hstep] at he ⊢
  exact hf a middle hs b he

/-- What has been stored stays stored while more is computed. -/
theorem Stores.cons {x : EngineM TypeLiteral} {y : EngineM (List TypeLiteral)}
    (hx : interning.ensures x fun _ => True) (hxs : Stores x fun lit => [lit])
    (hy : interning.ensures y fun _ => True) (hys : Stores y id) :
    Stores (do return (← x) :: (← y)) id := by
  intro memory h found he
  obtain ⟨hs, -, -⟩ := hx memory h
  have hfirst := hxs memory h
  obtain ⟨lit, middle, hrun, hstep⟩ := Outcome.exists_step he
  rw [hrun] at hs hfirst
  rw [hstep] at he ⊢
  obtain ⟨-, hg, -⟩ := hy middle hs
  have hrest := hys middle hs
  obtain ⟨rest, last, hrun', hstep'⟩ := Outcome.exists_step he
  rw [hrun'] at hg hrest
  rw [hstep'] at he ⊢
  obtain rfl := Except.ok.inj he
  intro u hu
  rcases List.mem_cons.1 hu with rfl | hu
  · exact (hfirst u rfl u (List.mem_singleton_self u)).mono hg
  · exact hrest rest rfl u hu

theorem stores_parseWithCodec (codec? : Option PathCodec) (id : String) :
    Stores (parseWithCodec codec? id) fun lit => [lit] := by
  intro memory h read he lit hl
  rw [List.mem_singleton.1 hl]
  exact ParseTables.stores_parseWith rfl id.toList
    { memory.tables with codec := codec?.getD memory.tables.codec } h.canonical read he

theorem stores_parse (id : String) : Stores (parse id) fun lit => [lit] := by
  intro memory h
  obtain ⟨counters, he⟩ := parse_run id memory
  rw [he]
  exact stores_parseWithCodec none id { memory with counters } ⟨h.canonical, h.identities⟩

theorem stores_literalFor (store : Store) (t : HostType) :
    Stores (literalFor store t) fun lit => [lit] := by
  intro memory h found he lit hl
  rw [List.mem_singleton.1 hl]
  cases hk : memory.identity? t with
  | some known =>
    rw [literalFor_known hk] at he ⊢
    rw [identity?_eq] at hk
    exact Except.ok.inj he ▸ h.identities t known hk
  | none =>
    rw [literalFor_unknown hk] at he ⊢
    have hsettle (built : TypeLiteral) : Stores (share built >>= remember t) fun lit => [lit] := by
      intro middle hm known hknown u hu
      rw [List.mem_singleton.1 hu]
      exact (hm.settle t built).2.2 known hknown
    have hbuild : interning.ensures (build store t) fun _ => True :=
      lasts_build lasting_interning fun c _ => lasts_literalFor lasting_interning store c
    exact Stores.bind hbuild hsettle memory.missed h.missed found he found
      (List.mem_singleton_self found)

theorem stores_literalsFor (store : Store) (types : List HostType) :
    Stores (literalsFor store types) id := by
  induction types with
  | nil =>
    intro memory h found he
    obtain rfl := Except.ok.inj he
    exact fun u hu => nomatch hu
  | cons t types ih =>
    rw [literalsFor, List.mapM_cons]
    exact Stores.cons (lasts_literalFor lasting_interning store t) (stores_literalFor store t)
      (lasts_literalsFor lasting_interning store types) ih

/-! ## The engine in use -/

/-- The literals that are handed out in a sequence of calls. -/
def handedOut (memory : Memory) : List Call → List TypeLiteral
  | [] => []
  | call :: later => (respond call memory).1.toOption.getD [] ++ (memory.after call).handedOut later

theorem Steady.after (h : memory.Steady) (call : Call) : (memory.after call).Steady := by
  by_cases hr : call = .reset
  · subst hr
    exact steady_fresh memory.config
  · exact (lasts_respond lasting_interning hr memory h).1

theorem Stores.map {α : Type} {x : EngineM α} {lits : α → List TypeLiteral} (h : Stores x lits) :
    Stores (lits <$> x) id := by
  intro memory hm found he
  have hfound := h memory hm
  rw [map_eq_pure_bind] at he ⊢
  obtain ⟨a, last, hrun, hstep⟩ := Outcome.exists_step he
  rw [hrun] at hfound
  rw [hstep] at he ⊢
  obtain rfl := Except.ok.inj he
  exact hfound a rfl

theorem stores_respond (call : Call) : Stores (respond call) id := by
  have hnone {α : Type} (x : EngineM α) : Stores ((fun _ => []) <$> x) id :=
    Stores.map fun _ _ _ _ _ hl => nomatch hl
  cases call with
  | parse id => exact (stores_parse id).map
  | parseWithCodec codec? id => exact (stores_parseWithCodec codec? id).map
  | literalize store t => exact (stores_literalFor store t).map
  | literalizeAll store types => exact stores_literalsFor store types
  | codec call =>
    intro memory h found he
    obtain rfl := Except.ok.inj he
    exact fun u hu => nomatch hu
  | wrapped | display | methods | method? | fieldBy? | reset => exact hnone _

/-- Until the engine is reset it loses no literal, and keeps all those that it hands out. -/
theorem Steady.keeps (h : memory.Steady) {later : List Call} (hr : .reset ∉ later) :
    memory.tables.literals.Grows (later.foldl Memory.after memory).tables.literals ∧
      ∀ lit ∈ memory.handedOut later,
        (later.foldl Memory.after memory).tables.literals.Stored lit := by
  induction later generalizing memory with
  | nil => exact ⟨.refl _, fun lit hl => nomatch hl⟩
  | cons call later ih =>
    have hne : call ≠ .reset := fun he => hr (he ▸ List.mem_cons_self ..)
    obtain ⟨hg, hkept⟩ := ih (h.after call) fun hm => hr (List.mem_cons_of_mem _ hm)
    obtain ⟨-, hgrow, -⟩ := lasts_respond lasting_interning hne memory h
    refine ⟨hgrow.trans hg, fun lit hl => ?_⟩
    rcases List.mem_append.1 hl with hl | hl
    · have hstores := stores_respond call memory h
      cases ha : (respond call memory).1 with
      | error e =>
        rw [ha] at hl
        cases hl
      | ok found =>
        rw [ha] at hl
        exact (hstores found ha lit hl).mono hg
    · exact hkept lit hl

theorem steady_reached (config : Config) (calls : List Call) : (reached config calls).Steady := by
  induction calls using List.reverseRecOn with
  | nil => exact steady_fresh config
  | append_singleton calls call ih =>
    rw [reached, List.foldl_concat]
    exact ih.after call

/-- Every literal of a table is what the table has for its canonical text, so that literals which
print alike are one; entries stay what they are until the table is cleared; and what a call returns
is an entry.  The same holds for the literals of the engine, where also every remembered literal is
an entry: until the engine is reset, any two literals that it hands out for ids and host types are
equal exactly when they print alike. -/
theorem interning_canonical :
    (∀ calls : List LiteralTable.Call,
      (LiteralTable.reached calls).Canonical ∧
      (∀ t u, (LiteralTable.reached calls).Stored t → (LiteralTable.reached calls).Stored u →
        t.canonical = u.canonical → t = u) ∧
      (∀ later : List LiteralTable.Call, .clear ∉ later →
        (LiteralTable.reached calls).Grows
          (later.foldl LiteralTable.after (LiteralTable.reached calls))) ∧
      ∀ call lit, ((LiteralTable.reached calls).request call).1 = some lit →
        ((LiteralTable.reached calls).request call).2.Stored lit) ∧
    ∀ (config : Config) (calls : List Call),
      (reached config calls).tables.literals.Canonical ∧
      (∀ (t : HostType) (lit : TypeLiteral), (reached config calls).identities[t]? = some lit →
        (reached config calls).tables.literals.Stored lit) ∧
      ∀ later : List Call, .reset ∉ later →
        (reached config calls).tables.literals.Grows
          (later.foldl Memory.after (reached config calls)).tables.literals ∧
        ∀ t ∈ (reached config calls).handedOut later,
          (later.foldl Memory.after (reached config calls)).tables.literals.Stored t ∧
          ∀ u ∈ (reached config calls).handedOut later, t = u ↔ t.canonical = u.canonical := by
  constructor
  · intro calls
    have hc := LiteralTable.canonical_reached calls
    refine ⟨hc, fun t u ht hu => (hc.eq_iff ht hu).2, fun later hl => hc.grows_foldl hl, ?_⟩
    exact fun call => (hc.request call).2.2
  · intro config calls
    have hs := steady_reached config calls
    refine ⟨hs.canonical, hs.identities, fun later hr => ?_⟩
    obtain ⟨hg, hkept⟩ := hs.keeps hr
    have hlast : (later.foldl Memory.after (reached config calls)).Steady := by
      rw [reached, ← List.foldl_append]
      exact steady_reached config (calls ++ later)
    refine ⟨hg, fun t ht => ⟨hkept t ht, fun u hu => ?_⟩⟩
    exact hlast.canonical.eq_iff (hkept t ht) (hkept u hu)

def intLiteral : TypeLiteral := .shape (.basic .int)

theorem portable_int : intLiteral.Portable := by
  refine ⟨?_, ?_, by decide +kernel⟩
  · unfold TypeLiteral.WellFormed TypeLiteral.WellFormedAs
    decide +kernel
  · unfold TypeLiteral.ClearParams
    decide +kernel

theorem handedOut_int : (reached {} [.reset]).handedOut
    [.parse intLiteral.canonical, .literalize ⟨#[], #[]⟩ (.static (.shape (.basic .int)))] =
      [intLiteral, intLiteral] := by
  have hd : Denotes ⟨#[], #[]⟩ (.static (.shape (.basic .int))) intLiteral := by
    have hviewable : Viewable ⟨#[], #[]⟩ (.shape (.basic .int)) := viewable_basic .int
    have hdenotes := hviewable.denotes
    rwa [StaticType.literal_shape] at hdenotes
  obtain ⟨middle, hparse, hm⟩ := returns_parse portable_int _ (sound_fresh ⟨#[], #[]⟩ {})
  obtain ⟨last, hfound, -⟩ := returns_literalFor hd portable_int middle hm
  have hfirst : respond (.parse intLiteral.canonical) (reached {} [.reset]) =
      (.ok [intLiteral], middle) := Outcome.run_bind hparse
  have hsecond : respond (.literalize ⟨#[], #[]⟩ (.static (.shape (.basic .int)))) middle =
      (.ok [intLiteral], last) := Outcome.run_bind hfound
  simp only [handedOut, after, hfirst, hsecond]
  rfl

/-- The id and the host type of the integers have one literal, which is stored. -/
theorem interning_canonical_int :
    ((LiteralTable.reached []).request (.intern intLiteral)).2.Stored intLiteral ∧
      (([Call.parse intLiteral.canonical,
          .literalize ⟨#[], #[]⟩ (.static (.shape (.basic .int)))].foldl Memory.after
        (reached {} [.reset])).tables.literals).Stored intLiteral := by
  constructor
  · refine (interning_canonical.1 []).2.2.2 (.intern intLiteral) intLiteral ?_
    simp [LiteralTable.request, LiteralTable.intern, LiteralTable.reached, LiteralTable.empty]
  · have hkept := (interning_canonical.2 {} [.reset]).2.2 [.parse intLiteral.canonical,
      .literalize ⟨#[], #[]⟩ (.static (.shape (.basic .int)))] (by simp)
    rw [handedOut_int] at hkept
    exact (hkept.2 intLiteral (by simp)).1

end TypeIdentity.Engine.Memory
