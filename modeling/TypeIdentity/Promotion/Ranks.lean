/-! # Ranks of pending tasks

A stack of tasks runs empty when every task done is replaced by tasks of smaller ranks only, however
many they are.
-/
namespace TypeIdentity.Promotion

/-- Ranks of pending tasks; the first number is replaced by smaller ones until none is left. -/
structure Ranks where
  values : List Nat

namespace Ranks

/-- The first rank is replaced by smaller ones. -/
def Replaces (after before : Ranks) : Prop :=
  ∃ r rest smaller,
    before.values = r :: rest ∧ after.values = smaller ++ rest ∧ ∀ x ∈ smaller, x < r

theorem acc_cons (r : Nat) : ∀ rest, Acc Replaces ⟨rest⟩ → Acc Replaces ⟨r :: rest⟩ := by
  induction r using Nat.strongRecOn with
  | ind r ih =>
    intro rest hr
    have below : ∀ smaller : List Nat, (∀ x ∈ smaller, x < r) → Acc Replaces ⟨smaller ++ rest⟩ := by
      intro smaller hs
      induction smaller with
      | nil => exact hr
      | cons x xs hx =>
        exact ih x (hs x (List.mem_cons_self ..)) _
          (hx fun y hy => hs y (List.mem_cons_of_mem _ hy))
    refine ⟨_, fun after ⟨s, rest', smaller, hb, ha, hs⟩ => ?_⟩
    obtain ⟨rfl, rfl⟩ := List.cons.inj hb
    obtain ⟨values⟩ := after
    obtain rfl : values = smaller ++ rest := ha
    exact below smaller hs

theorem acc (ranks : Ranks) : Acc Replaces ranks := by
  obtain ⟨values⟩ := ranks
  induction values with
  | nil => exact ⟨_, fun _ ⟨_, _, _, h, _⟩ => by simp at h⟩
  | cons r rest ih => exact acc_cons r rest ih

instance : WellFoundedRelation Ranks := ⟨Replaces, ⟨acc⟩⟩

end Ranks
end TypeIdentity.Promotion
