import Mathlib.Data.List.Forall2
import TypeIdentity.Literal.Parser
import TypeIdentity.Proofs.Literal.WellFormed
import TypeIdentity.Proofs.Outcome

/-! # What readings yield

`Yields` says what a reading results in when every text it asks for stands for a literal, as some
relation has it, and every package path is decoded to what it was spelled from.  Running such a
reading gives that result, in any monad whose requests are met accordingly.
-/
namespace TypeIdentity
open Text

namespace Reading
variable {n : Nat} {α β γ : Type}

@[simp] theorem pure_eq (a : α) : (Pure.pure a : Reading n α) = done a := rfl

@[simp] theorem done_bind (a : α) (f : α → Reading n β) : (done a >>= f) = f a := rfl

theorem bind_done (x : Reading n α) : x.bind done = x := by
  induction x with
  | done | fail => rfl
  | parse _ _ _ ih | decodePath _ _ ih | share _ _ ih => simp only [bind, ih]

theorem bind_assoc (x : Reading n α) (f : α → Reading n β) (g : β → Reading n γ) :
    (x.bind f).bind g = x.bind fun a => (f a).bind g := by
  induction x with
  | done | fail => rfl
  | parse _ _ _ ih | decodePath _ _ ih | share _ _ ih => simp only [bind, ih]

instance : LawfulMonad (Reading n) := .mk' _ bind_done (fun _ _ => rfl) bind_assoc

/-- What stands for a path in a text; an unsafe pointer is always written with its own path. -/
def Spells (spell : String → String) (allowed : String → Prop) (path token : String) : Prop :=
  path ≠ "" ∧ allowed path ∧ PlainPath token ∧ token = spell path ∨
    path = "unsafe" ∧ token = "unsafe"

/-- The result of a reading whose requests concern literals and the texts that stand for them. -/
inductive Yields (spell : String → String) (allowed : String → Prop)
    (R : List Char → TypeLiteral → Prop) : Reading n α → α → Prop
  | done (a : α) : Yields spell allowed R (done a) a
  | parse {text : List Char} {h : text.length < n} {next : TypeLiteral → Reading n α}
      {t : TypeLiteral} {a : α} (ht : R text t) (hn : Yields spell allowed R (next t) a) :
      Yields spell allowed R (parse text h next) a
  | decodePath {next : String → Reading n α} {path token : String} {a : α}
      (hs : Spells spell allowed path token) (hn : Yields spell allowed R (next path) a) :
      Yields spell allowed R (decodePath token next) a
  | share {text : List Char} {lit : TypeLiteral} {next : TypeLiteral → Reading n α} {a : α}
      (hl : R text lit) (hn : Yields spell allowed R (next lit) a) :
      Yields spell allowed R (share lit next) a

namespace Yields
variable {spell : String → String} {allowed : String → Prop} {R : List Char → TypeLiteral → Prop}

theorem bind {x : Reading n α} {f : α → Reading n β} {a : α} {b : β}
    (hx : Yields spell allowed R x a) (hf : Yields spell allowed R (f a) b) :
    Yields spell allowed R (x >>= f) b := by
  induction hx with
  | done => exact hf
  | parse ht _ ih => exact parse ht (ih hf)
  | decodePath hs _ ih => exact decodePath hs (ih hf)
  | share hl _ ih => exact share hl (ih hf)

theorem sub {text : List Char} {t : TypeLiteral} (ht : R text t) (h : text.length < n) :
    Yields spell allowed R (Reading.sub text h : Reading n TypeLiteral) t :=
  parse ht (done t)

theorem mapM {f : β → Reading n γ} {xs : List β} {ys : List γ}
    (h : List.Forall₂ (fun x y => Yields spell allowed R (f x) y) xs ys) :
    Yields spell allowed R (xs.mapM f) ys := by
  induction h with
  | nil => exact done []
  | cons hx _ ih =>
    rw [List.mapM_cons]
    exact hx.bind (ih.bind (done _))

end Yields

/-! ## Carrying a reading out -/

theorem returns_run {m : Type → Type} [Monad m] [MonadExceptOf Error m] (o : Outcome m)
    {spell : String → String} {allowed : String → Prop} {R : List Char → TypeLiteral → Prop}
    {parseText : (text : List Char) → text.length < n → m TypeLiteral}
    {decode : String → m String} {shareLit : TypeLiteral → m TypeLiteral}
    (hparse : ∀ text t h, R text t → o.returns (parseText text h) t)
    (hdecode : ∀ path token, Spells spell allowed path token → o.returns (decode token) path)
    (hshare : ∀ text t, R text t → o.returns (shareLit t) t)
    {x : Reading n α} {a : α} (h : Yields spell allowed R x a) :
    o.returns (x.run parseText decode shareLit) a := by
  induction h with
  | done a => exact o.pure a
  | parse ht _ ih => exact o.bind (hparse _ _ _ ht) ih
  | decodePath hs _ ih => exact o.bind (hdecode _ _ hs) ih
  | share hl _ ih => exact o.bind (hshare _ _ hl) ih

end Reading
end TypeIdentity
