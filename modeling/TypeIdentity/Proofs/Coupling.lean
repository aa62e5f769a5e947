import TypeIdentity.Shape

/-! # Computations side by side

A coupling relates computations of two monads that return values of one type.  It only has to say
how single steps are related: what is put together alike from related computations is related too,
in particular two walks over one list or over one shape.
-/
namespace TypeIdentity

/-- Which computations of `m` and of `n` belong together. -/
structure Coupling (m n : Type → Type) [Monad m] [Monad n] where
  related : {α : Type} → m α → n α → Prop
  pure : ∀ {α : Type} (a : α), related (Pure.pure a) (Pure.pure a)
  bind : ∀ {α β : Type} {x : m α} {y : n α} {f : α → m β} {g : α → n β},
    related x y → (∀ a, related (f a) (g a)) → related (x >>= f) (y >>= g)

namespace Coupling
variable {m n : Type → Type} [Monad m] [Monad n] (c : Coupling m n) {α β : Type}
  {f : α → m β} {g : α → n β}

theorem map [LawfulMonad m] [LawfulMonad n] {x : m α} {y : n α} (f : α → β)
    (h : c.related x y) : c.related (f <$> x) (f <$> y) := by
  rw [map_eq_pure_bind, map_eq_pure_bind]
  exact c.bind h fun a => c.pure (f a)

theorem mapM [LawfulMonad m] [LawfulMonad n] {as : List α}
    (h : ∀ a ∈ as, c.related (f a) (g a)) : c.related (as.mapM f) (as.mapM g) := by
  induction as with
  | nil => exact c.pure []
  | cons a as ih =>
    rw [List.mapM_cons, List.mapM_cons]
    refine c.bind (h a (List.mem_cons_self ..)) fun b => ?_
    exact c.bind (ih fun d hd => h d (List.mem_cons_of_mem _ hd)) fun bs => c.pure (b :: bs)

theorem traverse_signature [LawfulMonad m] [LawfulMonad n] {s : Signature α}
    (h : ∀ a ∈ s.types, c.related (f a) (g a)) : c.related (s.traverse f) (s.traverse g) := by
  refine c.bind (c.mapM fun a ha => h a (List.mem_append_left _ ha)) fun ins => ?_
  exact c.bind (c.mapM fun a ha => h a (List.mem_append_right _ ha)) fun outs => c.pure _

theorem traverse [LawfulMonad m] [LawfulMonad n] {s : Shape α}
    (h : ∀ a ∈ s.children, c.related (f a) (g a)) : c.related (s.traverse f) (s.traverse g) := by
  cases s with
  | basic b => exact c.pure _
  | array _ e | slice e | chan _ e | pointer e =>
    exact c.bind (h e (List.mem_singleton_self e)) fun _ => c.pure _
  | map k e =>
    refine c.bind (h k (by simp [Shape.children])) fun _ => ?_
    exact c.bind (h e (by simp [Shape.children])) fun _ => c.pure _
  | func s => exact c.bind (c.traverse_signature h) fun _ => c.pure _
  | struct fs =>
    refine c.bind (c.mapM fun x hx => ?_) fun _ => c.pure _
    exact c.bind (h _ (List.mem_map_of_mem hx)) fun _ => c.pure _
  | interface ms =>
    refine c.bind (c.mapM fun x hx => ?_) fun _ => c.pure _
    refine c.bind (c.traverse_signature fun a ha => ?_) fun _ => c.pure _
    exact h a (List.mem_flatMap.2 ⟨x, hx, ha⟩)

end Coupling
end TypeIdentity
