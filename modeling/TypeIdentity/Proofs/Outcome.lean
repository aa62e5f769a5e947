import TypeIdentity.Error

/-! # Outcomes

An outcome says when a computation of a monad counts as returning a value, so that one argument
serves computations that can only fail and computations that also carry a state.  A computation with
a state returns a value when it does so from every state that satisfies an invariant, and preserves
the invariant.
-/
namespace TypeIdentity

/-- When a computation of `m` counts as returning a value. -/
structure Outcome (m : Type → Type) [Monad m] where
  returns : {α : Type} → m α → α → Prop
  pure : ∀ {α : Type} (a : α), returns (Pure.pure a) a
  bind : ∀ {α β : Type} {x : m α} {f : α → m β} {a : α} {b : β},
    returns x a → returns (f a) b → returns (x >>= f) b

namespace Outcome

/-- What a computation that can only fail returns. -/
def except : Outcome (Except Error) where
  returns x a := x = .ok a
  pure _ := rfl
  bind hx hf := by rw [hx]; exact hf

variable {σ α β : Type}

theorem run_bind {x : ExceptT Error (StateM σ) α} {f : α → ExceptT Error (StateM σ) β} {a : α}
    {s t : σ} (h : x s = (.ok a, t)) : (x >>= f) s = f a t := by
  have hb : (x >>= f) s = ExceptT.bindCont f (x s).1 (x s).2 := rfl
  rw [hb, h]
  rfl

theorem run_lift_bind (a : α) (f : α → ExceptT Error (StateM σ) β) (s : σ) :
    ((liftM (Except.ok a : Except Error α) : ExceptT Error (StateM σ) α) >>= f) s = f a s := rfl

theorem run_bind_error {x : ExceptT Error (StateM σ) α} {f : α → ExceptT Error (StateM σ) β}
    {e : Error} {s t : σ} (h : x s = (.error e, t)) : (x >>= f) s = (.error e, t) := by
  have hb : (x >>= f) s = ExceptT.bindCont f (x s).1 (x s).2 := rfl
  rw [hb, h]
  rfl

/-- A computation that succeeds goes on after a first step that succeeds. -/
theorem exists_step {x : ExceptT Error (StateM σ) α} {f : α → ExceptT Error (StateM σ) β} {b : β}
    {s : σ} (h : ((x >>= f) s).1 = .ok b) : ∃ a t, x s = (.ok a, t) ∧ (x >>= f) s = f a t := by
  cases hx : x s with
  | mk answer t =>
    cases answer with
    | error e =>
      rw [run_bind_error hx] at h
      cases h
    | ok a => exact ⟨a, t, rfl, run_bind hx⟩

theorem exists_of_run_bind {x : ExceptT Error (StateM σ) α} {f : α → ExceptT Error (StateM σ) β}
    {b : β} {s u : σ} (h : (x >>= f) s = (.ok b, u)) :
    ∃ a t, x s = (.ok a, t) ∧ f a t = (.ok b, u) := by
  obtain ⟨a, t, hx, hstep⟩ := exists_step (congrArg Prod.fst h)
  exact ⟨a, t, hx, hstep.symm.trans h⟩

theorem exists_of_run_map {x : ExceptT Error (StateM σ) α} {f : α → β} {b : β} {s t : σ}
    (h : (f <$> x) s = (.ok b, t)) : ∃ a, x s = (.ok a, t) ∧ b = f a := by
  rw [map_eq_pure_bind] at h
  obtain ⟨a, u, hx, hf⟩ := exists_of_run_bind h
  obtain ⟨hb, rfl⟩ := Prod.mk.inj hf
  exact ⟨a, hx, (Except.ok.inj hb).symm⟩

theorem run_map_error {x : ExceptT Error (StateM σ) α} {f : α → β} {e : Error} {s t : σ}
    (h : x s = (.error e, t)) : (f <$> x) s = (.error e, t) := by
  rw [map_eq_pure_bind]
  exact run_bind_error h

theorem run_map (x : ExceptT Error (StateM σ) α) (f : α → β) (s : σ) :
    (f <$> x) s = (f <$> (x s).1, (x s).2) := by
  cases hx : x s with
  | mk answer t =>
    cases answer with
    | error e => exact run_map_error hx
    | ok a =>
      rw [map_eq_pure_bind]
      exact run_bind hx

/-- Returned from every state with the invariant, which the state has afterwards too. -/
def preserving (invariant : σ → Prop) : Outcome (ExceptT Error (StateM σ)) where
  returns x a := ∀ s, invariant s → ∃ t, x s = (.ok a, t) ∧ invariant t
  pure a s h := ⟨s, rfl, h⟩
  bind hx hf s h := by
    obtain ⟨t, hx, ht⟩ := hx s h
    obtain ⟨u, hf, hu⟩ := hf t ht
    exact ⟨u, (run_bind hx).trans hf, hu⟩

variable {invariant : σ → Prop}

theorem preserving_get {k : σ → ExceptT Error (StateM σ) β} {b : β}
    (h : ∀ s, invariant s → (preserving invariant).returns (k s) b) :
    (preserving invariant).returns (get >>= k) b := by
  intro s hs
  exact h s hs s hs

theorem preserving_modify {f : σ → σ} (h : ∀ s, invariant s → invariant (f s)) :
    (preserving invariant).returns (modify f : ExceptT Error (StateM σ) PUnit) ⟨⟩ := by
  intro s hs
  exact ⟨f s, rfl, h s hs⟩

theorem preserving_lift (a : α) :
    (preserving invariant).returns (liftM (Except.ok a : Except Error α)) a := by
  intro s hs
  exact ⟨s, rfl, hs⟩

end Outcome
end TypeIdentity
