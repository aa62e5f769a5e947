import TypeIdentity.Proofs.Outcome
import Mathlib.Logic.Relation

/-! # Runs

A run leads a computation from one state to another without a failure.  Which states it joins does
not depend on what the computation returns, so a walk over a list runs through its members in turn.
-/
namespace TypeIdentity
open Relation
variable {σ α β γ δ : Type}

/-- The computation returns something in the first state and leaves the second one. -/
def Runs (x : ExceptT Error (StateM σ) α) (s t : σ) : Prop := ∃ a, x s = (.ok a, t)

theorem runs_pure (a : α) : Runs (pure a : ExceptT Error (StateM σ) α) = Eq := by
  funext s t
  refine propext ⟨fun ⟨_, h⟩ => (Prod.mk.inj h).2, ?_⟩
  rintro rfl
  exact ⟨a, rfl⟩

theorem runs_bind_iff {x : ExceptT Error (StateM σ) α} {f : α → ExceptT Error (StateM σ) β}
    {s u : σ} : Runs (x >>= f) s u ↔ ∃ a t, x s = (.ok a, t) ∧ Runs (f a) t u := by
  constructor
  · rintro ⟨b, hb⟩
    obtain ⟨a, t, hx, hf⟩ := Outcome.exists_of_run_bind hb
    exact ⟨a, t, hx, b, hf⟩
  · rintro ⟨a, t, hx, b, hf⟩
    exact ⟨b, (Outcome.run_bind hx).trans hf⟩

/-- A run of one computation after another, if the second one runs alike on all values. -/
theorem runs_bind {x : ExceptT Error (StateM σ) α} {f : α → ExceptT Error (StateM σ) β}
    {R : σ → σ → Prop} (hf : ∀ a, Runs (f a) = R) : Runs (x >>= f) = Comp (Runs x) R := by
  funext s u
  refine propext (runs_bind_iff.trans ⟨?_, ?_⟩)
  · rintro ⟨a, t, hx, h⟩
    exact ⟨t, ⟨a, hx⟩, hf a ▸ h⟩
  · rintro ⟨t, ⟨a, hx⟩, h⟩
    exact ⟨a, t, hx, (hf a).symm ▸ h⟩

/-- What is made of the value has no part in it. -/
theorem runs_bind_pure {x : ExceptT Error (StateM σ) α} (f : α → β) :
    Runs (x >>= fun a => pure (f a)) = Runs x := by
  rw [runs_bind fun a => runs_pure (f a), comp_eq]

theorem runs_map (f : α → β) (x : ExceptT Error (StateM σ) α) : Runs (f <$> x) = Runs x := by
  rw [map_eq_pure_bind]
  exact runs_bind_pure f

/-! ## Walking -/

variable (f : α → ExceptT Error (StateM σ) β)

theorem runs_nil : Runs (([] : List α).mapM f) = Eq := runs_pure _

theorem runs_cons (a : α) (as : List α) :
    Runs ((a :: as).mapM f) = Comp (Runs (f a)) (Runs (as.mapM f)) := by
  rw [List.mapM_cons]
  exact runs_bind fun b => runs_bind_pure (b :: ·)

theorem runs_singleton (a : α) : Runs ([a].mapM f) = Runs (f a) := by
  rw [runs_cons, runs_nil, comp_eq]

theorem preserved_of_runs {P : σ → Prop} {as : List α} {s t : σ}
    (h : ∀ a ∈ as, ∀ s t, P s → Runs (f a) s t → P t) (hs : P s) (hr : Runs (as.mapM f) s t) :
    P t := by
  induction as generalizing s with
  | nil =>
    rw [runs_nil] at hr
    exact hr ▸ hs
  | cons a as ih =>
    rw [runs_cons] at hr
    obtain ⟨u, ha, hr⟩ := hr
    exact ih (fun b hb => h b (List.mem_cons_of_mem _ hb))
      (h a (List.mem_cons_self ..) s u hs ha) hr

end TypeIdentity
