import TypeIdentity.Promotion.Path

/-! # Promoted fields

A field of the struct itself wins over all others; otherwise the embedded types are searched, and
there must be exactly one hit among them.  A pointer has no fields of its own, but a struct is
searched through an embedded pointer.
-/
namespace TypeIdentity.Promotion
variable {α : Type}

/-- The only member of a list. -/
def only? {β : Type} : List β → Option β
  | [b] => some b
  | _ => none

/-- Searches a type from the end of a path that may grow by `budget` types; `embedded` tells
whether an embedded field has been entered already. -/
def search (g : TypeGraph α) (accepts : String → Bool) (limit : Nat) :
    (budget : Nat) → (path : List α) → (embedded : Bool) → α → Except Error (Option (Field α))
  | budget, path, embedded, t => do
    if path.any fun s => g.same s t then return none
    else
      let view ← g.view t
      match budget with
      | 0 => throw (.traversalLimit limit (g.describe t))
      | budget + 1 =>
        match view with
        | .named n => search g accepts limit budget (t :: path) embedded n.underlying
        | .shape (.pointer e) =>
          if !embedded then return none
          else if (← g.view e).isPointer then return none
          else search g accepts limit budget (t :: path) embedded e
        | .shape (.struct fs) =>
          match fs.filter fun f => accepts f.name with
          | [] =>
            let hits ← (fs.filter (·.embedded)).mapM fun f =>
              search g accepts limit budget (t :: path) true f.type
            return only? (hits.filterMap id)
          | direct => return only? direct
        | _ => return none

/-- The field of a type whose name is accepted. -/
def field? (g : TypeGraph α) (limit : Nat) (accepts : String → Bool) (query : α) :
    Except Error (Option (Field α)) := search g accepts limit limit [] false query

end TypeIdentity.Promotion
