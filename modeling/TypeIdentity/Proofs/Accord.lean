import TypeIdentity.Proofs.Coupling
import TypeIdentity.Proofs.Shapes

/-! # Computations in accord

Two computations are in accord when they answer alike wherever both succeed: from related states
they return one value and leave related states.  Nothing is said of a computation that fails, so one
of the two may succeed alone.
-/
namespace TypeIdentity
variable {σ α β γ : Type}

/-- From related states the values are equal and the states stay related, unless one of the two
computations fails. -/
def Accord (R : σ → σ → Prop) (x y : ExceptT Error (StateM σ) α) : Prop :=
  ∀ s s', R s s' → ∀ a b t t', x s = (.ok a, t) → y s' = (.ok b, t') → a = b ∧ R t t'

namespace Accord
variable {R : σ → σ → Prop}

theorem pure (a : α) : Accord R (Pure.pure a) (Pure.pure a) := by
  intro s s' h b c t t' hx hy
  obtain ⟨hb, rfl⟩ := Prod.mk.inj hx
  obtain ⟨hc, rfl⟩ := Prod.mk.inj hy
  exact ⟨Except.ok.inj (hb.symm.trans hc), h⟩

theorem bind {x y : ExceptT Error (StateM σ) α} {f g : α → ExceptT Error (StateM σ) β}
    (h : Accord R x y) (hk : ∀ a, Accord R (f a) (g a)) : Accord R (x >>= f) (y >>= g) := by
  intro s s' hs b c u u' hx hy
  obtain ⟨a, t, hrun, hx⟩ := Outcome.exists_of_run_bind hx
  obtain ⟨a', t', hrun', hy⟩ := Outcome.exists_of_run_bind hy
  obtain ⟨rfl, ht⟩ := h s s' hs a a' t t' hrun hrun'
  exact hk a t t' ht b c u u' hx hy

/-- Computations in accord, step by step. -/
def coupling (R : σ → σ → Prop) : Coupling (ExceptT Error (StateM σ)) (ExceptT Error (StateM σ)) where
  related := Accord R
  pure := pure
  bind := bind

theorem map {x y : ExceptT Error (StateM σ) α} (f : α → β) (h : Accord R x y) :
    Accord R (f <$> x) (f <$> y) := (coupling R).map f h

theorem lift (x : Except Error α) : Accord R (liftM x) (liftM x) := by
  intro s s' h a b t t' hx hy
  obtain ⟨hxa, rfl⟩ := Prod.mk.inj hx
  obtain ⟨hxb, rfl⟩ := Prod.mk.inj hy
  exact ⟨Except.ok.inj (hxa.symm.trans hxb), h⟩

theorem throw_left (e : Error) (y : ExceptT Error (StateM σ) α) : Accord R (throw e) y := by
  intro s s' h a b t t' hx
  cases (Prod.mk.inj hx).1

theorem throw_right (e : Error) (x : ExceptT Error (StateM σ) α) : Accord R x (throw e) := by
  intro s s' h a b t t' hx hy
  cases (Prod.mk.inj hy).1

/-- A computation that looks at the state is in accord with another one if it is so wherever the
two may look. -/
theorem get {k l : σ → ExceptT Error (StateM σ) α}
    (h : ∀ s s', R s s' → Accord R (k s) (l s')) :
    Accord R (MonadStateOf.get >>= k) (MonadStateOf.get >>= l) := by
  intro s s' hs
  exact h s s' hs s s' hs

theorem modify {f g : σ → σ} (h : ∀ s s', R s s' → R (f s) (g s')) :
    Accord R (modify f : ExceptT Error (StateM σ) PUnit) (modify g) := by
  intro s s' hs a b t t' hx hy
  obtain ⟨-, rfl⟩ := Prod.mk.inj hx
  obtain ⟨-, rfl⟩ := Prod.mk.inj hy
  exact ⟨rfl, h s s' hs⟩

/-! ## Walking -/

variable {f g : α → ExceptT Error (StateM σ) β}

theorem mapM {as : List α} (h : ∀ a ∈ as, Accord R (f a) (g a)) :
    Accord R (as.mapM f) (as.mapM g) := (coupling R).mapM h

theorem traverse {s : Shape α} (h : ∀ c ∈ s.children, Accord R (f c) (g c)) :
    Accord R (s.traverse f) (s.traverse g) := (coupling R).traverse h

end Accord
end TypeIdentity
