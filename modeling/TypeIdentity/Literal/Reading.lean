import TypeIdentity.Literal.Basic
import TypeIdentity.Error

/-! # Readings

A `Reading` describes how one level of a type id is read: which shorter texts have to be parsed,
which package paths decoded and which derived literals shared, in which order, and what comes of the
answers.  Whoever runs it decides how those requests are met.
-/
namespace TypeIdentity

/-- A computation that may ask for the literals of texts shorter than `bound`. -/
inductive Reading (bound : Nat) (α : Type) : Type
  | done (a : α)
  | fail (error : Error)
  | parse (text : List Char) (shorter : text.length < bound) (next : TypeLiteral → Reading bound α)
  | decodePath (token : String) (next : String → Reading bound α)
  | share (lit : TypeLiteral) (next : TypeLiteral → Reading bound α)

namespace Reading
variable {bound : Nat} {α β : Type}

def bind : Reading bound α → (α → Reading bound β) → Reading bound β
  | done a, f => f a
  | fail e, _ => fail e
  | parse text h next, f => parse text h fun t => (next t).bind f
  | decodePath token next, f => decodePath token fun p => (next p).bind f
  | share lit next, f => share lit fun t => (next t).bind f

instance : Monad (Reading bound) where
  pure := done
  bind := bind

/-- Asks for the literal of a shorter text. -/
def sub (text : List Char) (shorter : text.length < bound) : Reading bound TypeLiteral :=
  parse text shorter done

/-- The value of a computation without requests, together with the proof that it is. -/
def lift (x : Except Error α) : Reading bound {a // x = .ok a} :=
  match x with
  | .ok a => done ⟨a, rfl⟩
  | .error e => fail e

/-- Carries a reading out in a monad that meets its requests. -/
def run {m : Type → Type} [Monad m] [MonadExceptOf Error m]
    (parseText : (text : List Char) → text.length < bound → m TypeLiteral)
    (decode : String → m String) (shareLit : TypeLiteral → m TypeLiteral) : Reading bound α → m α
  | done a => Pure.pure a
  | fail e => throw e
  | parse text h next => do (next (← parseText text h)).run parseText decode shareLit
  | decodePath token next => do (next (← decode token)).run parseText decode shareLit
  | share lit next => do (next (← shareLit lit)).run parseText decode shareLit

end Reading
end TypeIdentity
