import TypeIdentity.StaticType.Basic

/-! # Substitution of type arguments

A generic declaration is defined by a skeleton in which type parameters stand for the arguments by
position.  References inside a skeleton are not expanded: one with arguments has them substituted,
and a generic one without arguments takes over the outer arguments.
-/
namespace TypeIdentity
namespace StaticType

/-- The failure of a declaration that got the wrong number of arguments. -/
def arityError (d : Decl) (actual : Nat) : Error := .arity d.qualifiedName d.arity actual

/-- How many arguments a parameter asks for, counted in a word: one more than its index. -/
def required (index : UInt64) : Except Error Nat :=
  if index.toNat + 1 < UInt64.size then .ok (index.toNat + 1) else .error .overflow

/-- The index that has no successor. -/
def lastIndex : UInt64 := 0xFFFFFFFFFFFFFFFF

theorem required_eq {index : UInt64} (h : index ≠ lastIndex) :
    required index = .ok (index.toNat + 1) := by
  have hne : index.toNat ≠ lastIndex.toNat := fun he => h (UInt64.toNat_inj.1 he)
  have hlast : lastIndex.toNat + 1 = UInt64.size := rfl
  have hlt := index.toNat_lt_size
  rw [required, if_pos (by omega)]

theorem required_last : required lastIndex = .error .overflow := rfl

def replaceParams (args : List StaticType) : StaticType → Except Error StaticType
  | shape s => do return shape (← s.attach.traverse fun c => replaceParams args c.1)
  | param index name =>
    match args[index.toNat]? with
    | some t => .ok t
    | none => do throw (.arity ("type parameter " ++ name) (← required index) args.length)
  | named d bound =>
    if !d.isGeneric then .ok (named d bound)
    else if bound = [] then
      if args.length = d.arity then .ok (named d args) else .error (arityError d args.length)
    else if bound.length = d.arity then do
      return named d (← bound.attach.mapM fun c => replaceParams args c.1)
    else .error (arityError d bound.length)
  | tuple items => do return tuple (← items.attach.mapM fun c => replaceParams args c.1)
  | union items => do return union (← items.attach.mapM fun c => replaceParams args c.1)
termination_by t => sizeOf t
decreasing_by all_goals exact sizeOf_lt_of_mem_children c.2

/-- A skeleton with its placeholders replaced; without arguments it stays as it is. -/
def substitute (skeleton : StaticType) (args : List StaticType) : Except Error StaticType :=
  if args.isEmpty then .ok skeleton else replaceParams args skeleton

/-- A reference with as many arguments as the declaration has parameters. -/
def instantiate (d : Decl) (args : List StaticType) : Except Error StaticType :=
  if args.length = d.arity then .ok (named d args) else .error (arityError d args.length)

end StaticType

def Signature.substitute (s : Signature StaticType) (args : List StaticType) :
    Except Error (Signature StaticType) :=
  s.traverse fun t => t.substitute args

end TypeIdentity
