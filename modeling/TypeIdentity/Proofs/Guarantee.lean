import TypeIdentity.Proofs.Outcome
import TypeIdentity.Shape

/-! # What computations guarantee

A guarantee says what holds of the values that a computation returns; of a computation that fails it
says nothing, unless it is about the failures too.  A computation with a state also keeps an
invariant, as long as it does not fail or even then.
-/
namespace TypeIdentity

/-- What holds of the values that computations of `m` return. -/
structure Guarantee (m : Type → Type) [Monad m] where
  ensures : {α : Type} → m α → (α → Prop) → Prop
  pure : ∀ {α : Type} {post : α → Prop} {a : α}, post a → ensures (Pure.pure a) post
  bind : ∀ {α β : Type} {x : m α} {f : α → m β} {mid : α → Prop} {post : β → Prop},
    ensures x mid → (∀ a, mid a → ensures (f a) post) → ensures (x >>= f) post

namespace Guarantee

/-- Computations that can only fail. -/
def except : Guarantee (Except Error) where
  ensures x post := ∀ a, x = .ok a → post a
  pure h a he := Except.ok.inj he ▸ h
  bind {_ _ x _ _ _} hx hf b he := by
    cases x with
    | error e => cases he
    | ok a => exact hf a (hx a rfl) b he

/-- Computations that can only fail, and then with an error of the given kind. -/
def failing (kind : Error → Prop) : Guarantee (Except Error) where
  ensures x post := (∀ a, x = .ok a → post a) ∧ ∀ e, x = .error e → kind e
  pure h := ⟨fun _ he => Except.ok.inj he ▸ h, fun _ he => nomatch he⟩
  bind {_ _ x _ _ _} hx hf := by
    cases x with
    | error e => exact ⟨fun _ he => (nomatch he), fun _ he => Except.error.inj he ▸ hx.2 e rfl⟩
    | ok a => exact hf a (hx.1 a rfl)

/-- Computations that start in a state with the invariant and, unless they fail, end in one. -/
def maintaining {σ : Type} (invariant : σ → Prop) : Guarantee (ExceptT Error (StateM σ)) where
  ensures x post := ∀ s, invariant s → ∀ a t, x s = (.ok a, t) → post a ∧ invariant t
  pure h s hs a t he := by
    obtain ⟨ha, rfl⟩ := Prod.mk.inj he
    exact ⟨Except.ok.inj ha ▸ h, hs⟩
  bind hx hf s hs b u he := by
    obtain ⟨a, t, hrun, hstep⟩ := Outcome.exists_of_run_bind he
    obtain ⟨ha, ht⟩ := hx s hs a t hrun
    exact hf a ha t ht b u hstep

theorem maintaining_get {σ β : Type} {invariant : σ → Prop} {k : σ → ExceptT Error (StateM σ) β}
    {post : β → Prop} (h : ∀ s, invariant s → (maintaining invariant).ensures (k s) post) :
    (maintaining invariant).ensures (get >>= k) post := by
  intro s hs
  exact h s hs s hs

/-- Computations that keep an invariant and lose nothing of the state, also when they fail. -/
def advancing {σ : Type} (invariant : σ → Prop) (grows : σ → σ → Prop) (refl : ∀ s, grows s s)
    (trans : ∀ {a b c : σ}, grows a b → grows b c → grows a c) :
    Guarantee (ExceptT Error (StateM σ)) where
  ensures x post := ∀ s, invariant s →
    invariant (x s).2 ∧ grows s (x s).2 ∧ ∀ a, (x s).1 = .ok a → post a
  pure {_ _ a} h s hs := ⟨hs, refl s, fun b hb => Except.ok.inj hb ▸ h⟩
  bind {_ _ x f _ _} hx hf s hs := by
    obtain ⟨ht, hst, hpost⟩ := hx s hs
    cases hrun : x s with
    | mk answer t =>
      rw [hrun] at ht hst hpost
      cases answer with
      | error e =>
        rw [Outcome.run_bind_error hrun]
        exact ⟨ht, hst, fun b hb => nomatch hb⟩
      | ok a =>
        obtain ⟨hu, htu, hb⟩ := hf a (hpost a rfl) t ht
        rw [Outcome.run_bind hrun]
        exact ⟨hu, trans hst htu, hb⟩

variable {m : Type → Type} [Monad m] [LawfulMonad m] (g : Guarantee m) {α β : Type}
  {R : α → β → Prop}

theorem map {x : m α} {mid : α → Prop} {post : β → Prop} {f : α → β} (h : g.ensures x mid)
    (hf : ∀ a, mid a → post (f a)) : g.ensures (f <$> x) post := by
  rw [map_eq_pure_bind]
  exact g.bind h fun a ha => g.pure (hf a ha)

theorem imp {x : m α} {post post' : α → Prop} (h : g.ensures x post)
    (hp : ∀ a, post a → post' a) : g.ensures x post' := by
  rw [← bind_pure x]
  exact g.bind h fun a ha => g.pure (hp a ha)

/-- A list of what the members and the values have in common, if every member has such a thing. -/
theorem mapM {γ : Type} {p : γ → α} {q : γ → β} {Q : γ → Prop} {f : α → m β} {as : List α}
    (h : ∀ a ∈ as, g.ensures (f a) fun b => ∃ z, p z = a ∧ q z = b ∧ Q z) :
    g.ensures (as.mapM f) fun bs => ∃ zs : List γ, zs.map p = as ∧ zs.map q = bs ∧ ∀ z ∈ zs, Q z := by
  induction as with
  | nil => exact g.pure ⟨[], rfl, rfl, by simp⟩
  | cons a as ih =>
    rw [List.mapM_cons]
    refine g.bind (h a (List.mem_cons_self ..)) fun b hb => ?_
    refine g.bind (ih fun c hc => h c (List.mem_cons_of_mem _ hc)) fun bs hbs => ?_
    obtain ⟨z, rfl, rfl, hz⟩ := hb
    obtain ⟨zs, rfl, rfl, hzs⟩ := hbs
    refine g.pure ⟨z :: zs, rfl, rfl, ?_⟩
    intro y hy
    rcases List.mem_cons.1 hy with rfl | hy
    · exact hz
    · exact hzs y hy

/-- The values a list is mapped to face its members. -/
theorem mapM_pairs {f : α → m β} {as : List α} (h : ∀ a ∈ as, g.ensures (f a) (R a)) :
    g.ensures (as.mapM f) fun bs =>
      ∃ zs : List (α × β), zs.map Prod.fst = as ∧ zs.map Prod.snd = bs ∧ ∀ z ∈ zs, R z.1 z.2 :=
  g.mapM fun a ha => g.imp (h a ha) fun b hb => ⟨(a, b), rfl, rfl, hb⟩

theorem traverse_signature {f : α → m β} {s : Signature α}
    (h : ∀ c ∈ s.types, g.ensures (f c) (R c)) :
    g.ensures (s.traverse f) fun t => ∃ z : Signature (α × β),
      z.map Prod.fst = s ∧ z.map Prod.snd = t ∧ ∀ c ∈ z.types, R c.1 c.2 := by
  refine g.bind (g.mapM_pairs fun c hc => h c (List.mem_append_left _ hc)) fun ins hins => ?_
  refine g.bind (g.mapM_pairs fun c hc => h c (List.mem_append_right _ hc)) fun outs houts => ?_
  obtain ⟨zi, hi, rfl, hzi⟩ := hins
  obtain ⟨zo, ho, rfl, hzo⟩ := houts
  refine g.pure ⟨⟨zi, zo, s.variadic⟩, by rw [Signature.map, hi, ho], rfl, ?_⟩
  intro c hc
  rcases List.mem_append.1 hc with hc | hc
  · exact hzi c hc
  · exact hzo c hc

/-- The components of a traversed shape face those of the shape it is made into. -/
theorem traverse {f : α → m β} {s : Shape α} (h : ∀ c ∈ s.children, g.ensures (f c) (R c)) :
    g.ensures (s.traverse f) fun t => ∃ z : Shape (α × β),
      z.mapChildren Prod.fst = s ∧ z.mapChildren Prod.snd = t ∧ ∀ c ∈ z.children, R c.1 c.2 := by
  cases s with
  | basic b => exact g.pure ⟨.basic b, rfl, rfl, by simp [Shape.children]⟩
  | array n e =>
    refine g.bind (h e (List.mem_singleton_self e)) fun x hx => ?_
    exact g.pure ⟨.array n (e, x), rfl, rfl, by simpa [Shape.children] using hx⟩
  | slice e =>
    refine g.bind (h e (List.mem_singleton_self e)) fun x hx => ?_
    exact g.pure ⟨.slice (e, x), rfl, rfl, by simpa [Shape.children] using hx⟩
  | chan d e =>
    refine g.bind (h e (List.mem_singleton_self e)) fun x hx => ?_
    exact g.pure ⟨.chan d (e, x), rfl, rfl, by simpa [Shape.children] using hx⟩
  | pointer e =>
    refine g.bind (h e (List.mem_singleton_self e)) fun x hx => ?_
    exact g.pure ⟨.pointer (e, x), rfl, rfl, by simpa [Shape.children] using hx⟩
  | map k e =>
    refine g.bind (h k (by simp [Shape.children])) fun l hl => ?_
    refine g.bind (h e (by simp [Shape.children])) fun x hx => ?_
    exact g.pure ⟨.map (k, l) (e, x), rfl, rfl, by simpa [Shape.children] using ⟨hl, hx⟩⟩
  | func s =>
    refine g.bind (g.traverse_signature h) fun t ht => ?_
    obtain ⟨z, rfl, rfl, hz⟩ := ht
    exact g.pure ⟨.func z, rfl, rfl, hz⟩
  | struct fs =>
    have hfields : g.ensures
        (fs.mapM fun x => do return (⟨x.name, ← f x.type, x.tag, x.embedded⟩ : Field β))
        fun ys => ∃ zs : List (Field (α × β)),
          zs.map (fun z => (⟨z.name, z.type.1, z.tag, z.embedded⟩ : Field α)) = fs ∧
          zs.map (fun z => (⟨z.name, z.type.2, z.tag, z.embedded⟩ : Field β)) = ys ∧
          ∀ z ∈ zs, R z.type.1 z.type.2 := by
      refine g.mapM fun x hx => g.bind (h _ (List.mem_map_of_mem hx)) fun b hb => ?_
      exact g.pure ⟨⟨x.name, (x.type, b), x.tag, x.embedded⟩, rfl, rfl, hb⟩
    refine g.bind hfields fun ys hys => ?_
    obtain ⟨zs, rfl, rfl, hz⟩ := hys
    refine g.pure ⟨.struct zs, rfl, rfl, ?_⟩
    intro c hc
    obtain ⟨z, hm, rfl⟩ := List.mem_map.1 hc
    exact hz z hm
  | interface ms =>
    have hmethods : g.ensures
        (ms.mapM fun x => do return (⟨x.name, ← x.signature.traverse f⟩ : Method β))
        fun ys => ∃ zs : List (Method (α × β)),
          zs.map (fun z => (⟨z.name, z.signature.map Prod.fst⟩ : Method α)) = ms ∧
          zs.map (fun z => (⟨z.name, z.signature.map Prod.snd⟩ : Method β)) = ys ∧
          ∀ z ∈ zs, ∀ c ∈ z.signature.types, R c.1 c.2 := by
      refine g.mapM fun x hx => ?_
      refine g.bind (g.traverse_signature fun c hc => h c (List.mem_flatMap.2 ⟨x, hx, hc⟩))
        fun t ht => ?_
      obtain ⟨z, hfst, rfl, hz⟩ := ht
      exact g.pure ⟨⟨x.name, z⟩, by rw [hfst], rfl, hz⟩
    refine g.bind hmethods fun ys hys => ?_
    obtain ⟨zs, rfl, rfl, hz⟩ := hys
    refine g.pure ⟨.interface zs, rfl, rfl, ?_⟩
    intro c hc
    obtain ⟨z, hm, hc⟩ := List.mem_flatMap.1 hc
    exact hz z hm c hc

end Guarantee
end TypeIdentity
