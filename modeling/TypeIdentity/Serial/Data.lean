import TypeIdentity.Text.Numeral

/-! # Documents

A document is a tree of lists, records and plain values.  Records are read by field name, or by
position from a list; constants are read as a string or as a record of one empty field.
-/
namespace TypeIdentity.Serial

/-- A document; numbers that are no unsigned integers are not told apart. -/
inductive Data
  | null
  | bool (value : Bool)
  | natural (value : Nat)
  | number
  | string (value : String)
  | list (items : List Data)
  | record (fields : List (String × Data))

instance : Inhabited Data := ⟨.null⟩

namespace Data

def bool? : Data → Option Bool
  | bool b => some b
  | _ => none

def word? : Data → Option Nat
  | natural n => if n < Text.wordBound then some n else none
  | _ => none

def string? : Data → Option String
  | string s => some s
  | _ => none

def constant? : Data → Option String
  | string s => some s
  | record [(name, null)] => some name
  | _ => none

/-- The values of the named fields; unknown fields are ignored, a list must not be too long. -/
def fields? (names : List String) : Data → Option (List (Option Data))
  | record fields => some (names.map fun name => fields.lookup name)
  | list items =>
    if items.length ≤ names.length then
      some (items.map some ++ List.replicate (names.length - items.length) none)
    else none
  | _ => none

/-- The values of fields that must all be there. -/
def allFields? (names : List String) (data : Data) : Option (List Data) := do
  (← data.fields? names).mapM id

end Data
end TypeIdentity.Serial
