import TypeIdentity.StaticType.Basic

/-! # Identity of static types

Two static types are the same exactly when they are equal once declarations are reduced to their
names.  A type may hold one component at many places, so `decideSame` answers at once where both
sides are one object, and a digest that the same types share finds them in a table.
-/
namespace TypeIdentity

/-- What counts of a declaration when types are compared. -/
def Decl.nominal (d : Decl) : Decl := ⟨0, d.path, d.name, []⟩

theorem Decl.same_iff {d e : Decl} : d.same e = true ↔ d.nominal = e.nominal := by
  simp [same, nominal]

namespace StaticType

/-- The type with every declaration reduced to its name. -/
def nominal : StaticType → StaticType
  | shape s => shape (s.attach.mapChildren fun c => nominal c.1)
  | named d args => named d.nominal (args.attach.map fun c => nominal c.1)
  | param index name => param index name
  | tuple items => tuple (items.attach.map fun c => nominal c.1)
  | union items => union (items.attach.map fun c => nominal c.1)
termination_by t => sizeOf t
decreasing_by all_goals exact sizeOf_lt_of_mem_children c.2

theorem same_iff {t u : StaticType} : t.same u = true ↔ t.nominal = u.nominal := by
  have lists {as bs : List StaticType}
      (h : ∀ a ∈ as, ∀ {b}, a.same b = true ↔ a.nominal = b.nominal) :
      agreeAll (fun c => same c.1) as.attach bs = true ↔ as.map nominal = bs.map nominal := by
    rw [agreeAll_attach same]
    exact agreeAll_iff_map fun a ha b => h a ha
  induction t generalizing u with
  | shape s ih =>
    cases u <;> simp only [same, nominal, shape.injEq, reduceCtorEq, Bool.false_eq_true]
    rw [Shape.agreeOn_eq same, Shape.attach_mapChildren, Shape.attach_mapChildren]
    exact Shape.agree_iff_map fun a ha b => ih a ha
  | named d as ih => cases u <;> simp [same, nominal, Decl.same_iff, lists ih]
  | param => cases u <;> simp [same, nominal]
  | tuple as ih | union as ih => cases u <;> simp [same, nominal, lists ih]

@[simp] theorem same_self (t : StaticType) : t.same t = true := same_iff.2 rfl

/-- Whether two types are the same, at once where they are one object. -/
def decideSame (t u : StaticType) : {b : Bool // b = t.same u} :=
  let answer (_ : Unit) : {b : Bool // b = t.same u} :=
    match t, u with
    | shape s, shape v => ⟨s.agreeOn (fun c _ w => (decideSame c w).1) v, by
        rw [same]
        exact congrArg (s.agreeOn · v)
          (funext fun c => funext fun _ => funext fun w => (decideSame c w).2)⟩
    | named d as, named e bs =>
      ⟨d.same e && agreeAll (fun c w => (decideSame c.1 w).1) as.attach bs, by
        rw [same, funext fun c : {c // c ∈ as} => funext fun w => (decideSame c.1 w).2]⟩
    | tuple as, tuple bs => ⟨agreeAll (fun c w => (decideSame c.1 w).1) as.attach bs, by
        rw [same, funext fun c : {c // c ∈ as} => funext fun w => (decideSame c.1 w).2]⟩
    | union as, union bs => ⟨agreeAll (fun c w => (decideSame c.1 w).1) as.attach bs, by
        rw [same, funext fun c : {c // c ∈ as} => funext fun w => (decideSame c.1 w).2]⟩
    | t, u => ⟨t.same u, rfl⟩
  ⟨withPtrEq t u (fun _ => (answer ()).1) fun e => by rw [(answer ()).2, e, same_self],
    (answer ()).2⟩
termination_by t
decreasing_by all_goals first
  | exact sizeOf_lt_of_mem_children ‹_›
  | exact sizeOf_lt_of_mem_children c.2

/-- A number that types which are the same have in common. -/
def digest : StaticType → UInt64
  | shape s => hash (s.attach.mapChildren fun c => digest c.1)
  | named d args => mixHash (hash (d.path, d.name)) (hash (args.attach.map fun c => digest c.1))
  | param index name => hash (index, name)
  | tuple items => mixHash 3 (hash (items.attach.map fun c => digest c.1))
  | union items => mixHash 5 (hash (items.attach.map fun c => digest c.1))
termination_by t => sizeOf t
decreasing_by all_goals exact sizeOf_lt_of_mem_children c.2

theorem digest_nominal (t : StaticType) : t.nominal.digest = t.digest := by
  have lists {as : List StaticType} (h : ∀ a ∈ as, a.nominal.digest = a.digest) :
      as.map (digest ∘ nominal) = as.map digest := List.map_congr_left h
  induction t with
  | shape s ih =>
    rw [nominal, digest, digest, Shape.attach_mapChildren, Shape.attach_mapChildren,
      Shape.attach_mapChildren, Shape.mapChildren_mapChildren, Shape.mapChildren_congr ih]
  | named d as ih => simp [nominal, digest, Decl.nominal, lists ih]
  | param => simp [nominal]
  | tuple as ih | union as ih => simp [nominal, digest, lists ih]

theorem digest_eq_of_same {t u : StaticType} (h : t.same u = true) : t.digest = u.digest := by
  rw [← digest_nominal t, same_iff.1 h, digest_nominal]

end StaticType
end TypeIdentity
