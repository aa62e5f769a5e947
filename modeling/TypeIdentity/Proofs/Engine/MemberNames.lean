import TypeIdentity.Proofs.Engine.Lookups
import TypeIdentity.Proofs.Promotion.Exclusion
import TypeIdentity.Proofs.Promotion.HostMethodSets

/-! # Methods and fields of one name

A name for which a method is found is not the name of a field that is found.  The lookup of the
field may fail nevertheless, since it follows embedded pointers to interfaces and may exceed the
limit there.
-/
namespace TypeIdentity.Engine.Memory
open Promotion
variable {store : Store} {t : HostType} {memory memory' : Memory} {name : String}

/-- With the limit for which a method of a name is found, no field of the name is found: there is
none, or the lookup exceeds the limit at an interface to which a pointer is embedded. -/
theorem field?_of_method? {entry : MethodEntry}
    (hlimit : memory'.config.maxTraversalDepth = memory.config.maxTraversalDepth)
    (h : (method? store t name memory).1 = .ok (some entry)) :
    (field? store t name memory').1 = .ok none ∨
      ∃ error, (field? store t name memory').1 = .error error ∧
        ∃ e, EmbedsInterfacePointer store.graph t e ∧
          ExceedsAt store.graph memory'.config.maxTraversalDepth e error := by
  obtain ⟨promoted, p, hm, hp, rfl⟩ := exists_promoted_of_method? h
  rw [← hlimit] at hm
  have hnothing : FindsNothing store.graph memory'.config.maxTraversalDepth t
      (Promotion.field? store.graph memory'.config.maxTraversalDepth (· = p.method.name) t) :=
    findsNothing_of_promoted hm hp fun name ha => of_decide_eq_true ha
  rcases hnothing with hnone | ⟨error, herror, hexceeds⟩
  · exact .inl (fieldBy?_of_none hnone)
  · exact .inr ⟨error, fieldBy?_of_error herror, hexceeds⟩

theorem method?_of_methods {pointerReceiver : Bool} {depth : Nat}
    (h : Promotion.methods store.graph memory.config.maxTraversalDepth t =
      .ok [⟨⟨name, ⟨[], [], false⟩, pointerReceiver⟩, depth⟩]) :
    (method? store t name memory).1 =
      .ok (some ⟨name, .shape (.func ⟨[], [], false⟩), pointerReceiver, depth⟩) := by
  have hmethods := methods_of_promoted h fun p hp => by
    obtain rfl := List.mem_singleton.1 hp
    rfl
  rw [method?_eq, hmethods]
  simp only [Except.map, List.map_cons, plainEntry, List.find?_cons, decide_true]

/-- A struct that embeds a pointer to itself embeds no pointer to an interface. -/
theorem field?_of_method?_chain :
    (method? chainStore (.static chain) "Len" { config := { maxTraversalDepth := 3 } }).1 =
      .ok (some ⟨"Len", .shape (.func ⟨[], [], false⟩), false, 0⟩) ∧
    (field? chainStore (.static chain) "Len" { config := { maxTraversalDepth := 3 } }).1 =
      .ok none := by
  have hmethod : (method? chainStore (.static chain) "Len"
      { config := { maxTraversalDepth := 3 } }).1 =
      .ok (some ⟨"Len", .shape (.func ⟨[], [], false⟩), false, 0⟩) :=
    method?_of_methods methods_chain
  refine ⟨hmethod, (field?_of_method? rfl hmethod).resolve_right ?_⟩
  rintro ⟨error, -, e, ⟨choices, s, path, ht, hv, hi, -⟩, -⟩
  have hpointer : ∀ u, Seen chainStore.graph (.static chain) u →
      chainStore.view u = .ok (.shape (.pointer e)) → e = .static chain := by
    intro u hu hv
    rcases seen_chain hu with rfl | rfl | rfl
    · cases view_chain.symm.trans hv
    · cases view_chainBody.symm.trans hv
    · cases view_chainPointer.symm.trans hv
      rfl
  rw [hpointer s.type ht.seen hv] at hi
  have hstruct : chainStore.graph.isInterface (.static chain) = .ok false := rfl
  cases hstruct.symm.trans hi

/-- A struct `T` with a method `M` that embeds a pointer to an interface `I`. -/
def handleStore : Store where
  decls := #[⟨some (.shape (.struct [⟨"I", .shape (.pointer (.named ⟨1, "lib", "I", []⟩ [])), "",
    true⟩])), [⟨"M", ⟨[], [], false⟩, false⟩]⟩, ⟨some (.shape (.interface [])), []⟩]
  nodes := #[]

def handle : StaticType := .named ⟨0, "lib", "T", []⟩ []

set_option maxRecDepth 4000 in
/-- The method is found with a limit that the lookup of the field exceeds. -/
theorem field?_of_method?_handle :
    (method? handleStore (.static handle) "M" { config := { maxTraversalDepth := 3 } }).1 =
      .ok (some ⟨"M", .shape (.func ⟨[], [], false⟩), false, 0⟩) ∧
    (field? handleStore (.static handle) "M" { config := { maxTraversalDepth := 3 } }).1 =
      .error (.traversalLimit 3 "lib.I") := by
  refine ⟨method?_of_methods ?_, fieldBy?_of_error ?_⟩
  · have hfound : explore handleStore.graph 3 1 3 [] [] (.static handle) =
        .ok ⟨["I"], [⟨([], 0), ⟨⟨"M", ⟨[], [], false⟩, false⟩, 0, false⟩⟩]⟩ := by
      rw [Store.graph_eq]
      with_unfolding_all rfl
    rw [methods_of_explore rfl hfound]
    cbv
  · rw [Store.graph_eq]
    cbv

end TypeIdentity.Engine.Memory
