import Mathlib.Data.List.Permutation
import TypeIdentity.Proofs.Engine.Lookups
import TypeIdentity.Proofs.Engine.Remembering
import TypeIdentity.Proofs.Promotion.Pointers

/-! # Method sets of a type and of the pointer to it

What is promoted to a type is promoted to the pointer to it.  A method that the engine reports for
both has the same signature both times, whatever the engine was asked for in between, since the
literals of its types are remembered.  These literals are those of one engine between two resets:
another engine, or the same one after a reset, may have stored another literal of the same text.
-/
namespace TypeIdentity.Engine.Memory
open Promotion

/-- The second method set contains the first one, and otherwise only methods that are declared on
pointers. -/
def Extends (entries entries' : List MethodEntry) : Prop :=
  (∀ entry ∈ entries, entry ∈ entries') ∧
    ∀ entry ∈ entries', entry ∉ entries → entry.pointerReceiver = true

theorem extends_map {ms ms' : List (Promoted HostType)} (literal : HostType → TypeLiteral)
    (h : (∀ m ∈ ms, m ∈ ms') ∧ ∀ m ∈ ms', m ∉ ms → m.method.pointerReceiver = true) :
    Extends (ms.map (methodEntry literal)) (ms'.map (methodEntry literal)) := by
  constructor
  · intro entry he
    obtain ⟨m, hm, rfl⟩ := List.mem_map.1 he
    exact List.mem_map_of_mem (h.1 m hm)
  · intro entry he hno
    obtain ⟨m, hm, rfl⟩ := List.mem_map.1 he
    exact h.2 m hm fun hm' => hno (List.mem_map_of_mem hm')

/-- The method set of a pointer contains that of its pointee, unless that is a pointer or an
interface, and besides only methods that are declared on pointers.  As long as the engine is not
reset in between, it reports the methods that both have in the same way. -/
theorem methods_pointer (store : Store) (t : HostType) (hpointer : ∀ e : HostType, t ≠ e.pointer)
    (hinterface : store.graph.isInterface t ≠ .ok true) :
    (∀ limit limit' ms ms', Promotion.methods store.graph limit t = .ok ms →
      Promotion.methods store.graph limit' t.pointer = .ok ms' →
        (∀ m ∈ ms, m ∈ ms') ∧ ∀ m ∈ ms', m ∉ ms → m.method.pointerReceiver = true) ∧
    ∀ (memory : Memory) (later : List Call) (entries entries' : List MethodEntry),
      .reset ∉ later →
      ((methods store t memory).1 = .ok entries →
        (methods store t.pointer
          (later.foldl Memory.after (methods store t memory).2)).1 = .ok entries' →
        Extends entries entries') ∧
      ((methods store t.pointer memory).1 = .ok entries' →
        (methods store t
          (later.foldl Memory.after (methods store t.pointer memory).2)).1 = .ok entries →
        Extends entries entries') := by
  refine ⟨fun limit limit' ms ms' => subset_methods_pointer hpointer hinterface,
    fun memory later entries entries' hr => ⟨fun h h' => ?_, fun h' h => ?_⟩⟩
  · have hgrows := (lasts_methods lasting_remembering store t.pointer
      (later.foldl Memory.after (methods store t memory).2) trivial).2.1
    obtain ⟨ms, hm, rfl⟩ := exists_methodEntries h ((remembers_foldl hr).trans hgrows)
    obtain ⟨ms', hm', rfl⟩ := exists_methodEntries h' (.refl _)
    exact extends_map _ (subset_methods_pointer hpointer hinterface hm hm')
  · have hgrows := (lasts_methods lasting_remembering store t
      (later.foldl Memory.after (methods store t.pointer memory).2) trivial).2.1
    obtain ⟨ms', hm', rfl⟩ := exists_methodEntries h' ((remembers_foldl hr).trans hgrows)
    obtain ⟨ms, hm, rfl⟩ := exists_methodEntries h (.refl _)
    exact extends_map _ (subset_methods_pointer hpointer hinterface hm hm')

/-! ## A struct with a method of each kind -/

/-- A struct that embeds a pointer to itself. -/
def cellStore : Store where
  decls := #[⟨some (.shape (.struct
      [⟨"Cell", .shape (.pointer (.named ⟨0, "lib", "Cell", []⟩ [])), "", true⟩])),
    [⟨"Load", ⟨[], [], false⟩, false⟩, ⟨"Store", ⟨[], [], false⟩, true⟩]⟩]
  nodes := #[]

def cell : HostType := .static (.named ⟨0, "lib", "Cell", []⟩ [])

def loadEntry : MethodEntry := ⟨"Load", .shape (.func ⟨[], [], false⟩), false, 0⟩

def storeEntry : MethodEntry := ⟨"Store", .shape (.func ⟨[], [], false⟩), true, 0⟩

theorem methods_cell : Promotion.methods cellStore.graph 5 cell =
    .ok [⟨⟨"Load", ⟨[], [], false⟩, false⟩, 0⟩] := by
  have hfound : explore cellStore.graph 5 1 5 [] [] cell =
      .ok ⟨["Cell"], [⟨([], 0), ⟨⟨"Load", ⟨[], [], false⟩, false⟩, 0, false⟩⟩,
        ⟨([], 1), ⟨⟨"Store", ⟨[], [], false⟩, true⟩, 0, false⟩⟩]⟩ := by
    rw [Store.graph_eq]
    with_unfolding_all rfl
  rw [methods_of_explore rfl hfound]
  cbv

theorem methods_cell_pointer : Promotion.methods cellStore.graph 5 cell.pointer =
    .ok [⟨⟨"Load", ⟨[], [], false⟩, false⟩, 0⟩, ⟨⟨"Store", ⟨[], [], false⟩, true⟩, 0⟩] := by
  have hfound : explore cellStore.graph 5 1 5 [] [] cell.pointer =
      .ok ⟨["Cell"], [⟨([0], 0), ⟨⟨"Load", ⟨[], [], false⟩, false⟩, 0, true⟩⟩,
        ⟨([0], 1), ⟨⟨"Store", ⟨[], [], false⟩, true⟩, 0, true⟩⟩]⟩ := by
    rw [Store.graph_eq]
    with_unfolding_all rfl
  rw [methods_of_explore rfl hfound]
  cbv

/-- The methods of the struct, asked for before those of the pointer. -/
theorem methods_pointer_cell : (∀ e : HostType, cell ≠ e.pointer) ∧
    cellStore.graph.isInterface cell ≠ .ok true ∧ ∃ memory : Memory,
      (methods cellStore cell memory).1 = .ok [loadEntry] ∧
      (methods cellStore cell.pointer (methods cellStore cell memory).2).1 =
        .ok [loadEntry, storeEntry] ∧
      Extends [loadEntry] [loadEntry, storeEntry] := by
  have hpointer (e : HostType) : cell ≠ e.pointer := by
    cases e <;> simp [cell, HostType.pointer]
  have hinterface : cellStore.graph.isInterface cell ≠ .ok true := by
    have hview : cellStore.graph.isInterface cell = .ok false := rfl
    rw [hview]
    simp
  let memory : Memory := { config := { maxTraversalDepth := 5 } }
  obtain ⟨counters, hrun⟩ : ∃ counters, methods cellStore cell memory =
      (.ok [loadEntry], { memory with counters }) := by
    have hlimit : Promotion.methods cellStore.graph memory.config.maxTraversalDepth cell = _ :=
      methods_cell
    refine methods_plain hlimit fun p hp => ?_
    obtain rfl := List.mem_singleton.1 hp
    rfl
  have hfirst : (methods cellStore cell memory).1 = .ok [loadEntry] := by rw [hrun]
  have hsecond : (methods cellStore cell.pointer (methods cellStore cell memory).2).1 =
      .ok [loadEntry, storeEntry] := by
    rw [hrun]
    have hlimit : Promotion.methods cellStore.graph
        { memory with counters }.config.maxTraversalDepth cell.pointer = _ := methods_cell_pointer
    refine methods_of_promoted hlimit fun p hp => ?_
    rcases List.mem_pair.1 hp with rfl | rfl <;> rfl
  exact ⟨hpointer, hinterface, memory, hfirst, hsecond,
    (((methods_pointer cellStore cell hpointer hinterface).2 memory [] _ _ (by simp)).1 hfirst
      hsecond)⟩

end TypeIdentity.Engine.Memory
