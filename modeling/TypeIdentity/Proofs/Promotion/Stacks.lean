import Mathlib.Logic.Relation
import TypeIdentity.Proofs.Promotion.Exploration
import TypeIdentity.Proofs.Promotion.Shortcuts

/-! # Stacks of tasks

The tasks of a walk stand for the calls of a depth-first exploration.  A task that leaves a type
waits for each step of the path, in the order of the steps, and it is carried out when the path is
what it was after that step had been put on it.  The path stays simple and within the limit, and the
stack runs empty or a step fails, however many types there are.
-/
namespace TypeIdentity.Promotion
open Relation
variable {α : Type} {g : TypeGraph α} {limit base : Nat} {query : α}

namespace Walk
variable {w next : Walk α} {tasks rest : List (Task α)} {path : Path α}

/-- The task on top of the stack is carried out. -/
def Next (g : TypeGraph α) (limit base : Nat) (w next : Walk α) : Prop :=
  w.step g limit base = .ok (some next)

/-- Tasks are carried out one after another. -/
abbrev Steps (g : TypeGraph α) (limit base : Nat) : Walk α → Walk α → Prop :=
  ReflTransGen (Next g limit base)

/-- Tasks are carried out, but none of those at the bottom of the stack. -/
abbrev StepsAbove (g : TypeGraph α) (limit base : Nat) (bottom : List (Task α)) :
    Walk α → Walk α → Prop :=
  ReflTransGen fun w next => Next g limit base w next ∧ bottom <:+ next.tasks

/-! ## Steps -/

/-- What a step does to the stack and the path. -/
inductive Moves (g : TypeGraph α) (limit : Nat) :
    List (Task α) → Path α → List (Task α) → Path α → Prop
  | leave {rest : List (Task α)} {path : Path α} :
      Moves g limit (.leave :: rest) path rest path.tail
  | pass {task : Task α} {rest : List (Task α)} {path : Path α} (h : task.isLeave = false) :
      Moves g limit (task :: rest) path rest path
  | enter {t : α} {v : View α} {below rest : List (Task α)} {path : Path α}
      (hn : path.visits g t = false) (hv : g.view t = .ok v) (hl : path.length < limit)
      (hb : ∀ task ∈ below, task.isLeave = false) :
      Moves g limit (.enter t :: rest) path (below ++ .leave :: rest) (stepOf t v :: path)

theorem Next.moves (h : Next g limit base w next) :
    Moves g limit w.tasks w.path next.tasks next.path := by
  obtain ⟨tasks, path, fields, candidates⟩ := w
  cases tasks with
  | nil => cases h
  | cons task rest =>
    cases task with
    | leave =>
      cases h
      exact .leave
    | declare ms =>
      cases h
      exact .pass rfl
    | enter t =>
      simp only [Next, step] at h
      split at h
      · cases h
        exact .pass rfl
      · next hn =>
        split at h
        · cases h
        · next v hv =>
          unfold Path.enter at h
          by_cases hl : path.length < limit
          · rw [if_pos hl] at h
            dsimp only at h
            split at h
            · cases h
            · next below hb =>
              cases h
              rw [tasks_collect, path_collect]
              exact .enter (Bool.eq_false_iff.2 hn) hv hl (subtasks_isLeave hb)
          · rw [if_neg hl] at h
            cases h

/-! ## Pending leaves -/

/-- A task that leaves a type is pending for each step of a path, which is simple and within the
limit. -/
structure Tidy (g : TypeGraph α) (limit : Nat) (tasks : List (Task α)) (path : Path α) : Prop where
  leaves : tasks.countP (·.isLeave) = path.length
  simple : Simple g path
  within : path.length ≤ limit

theorem countP_isLeave_eq_zero (h : ∀ task ∈ tasks, task.isLeave = false) :
    tasks.countP (·.isLeave) = 0 := by
  rw [List.countP_eq_zero]
  intro task hm
  rw [h task hm]
  exact Bool.false_ne_true

theorem countP_append_leave (h : ∀ task ∈ tasks, task.isLeave = false) :
    (tasks ++ .leave :: rest).countP (·.isLeave) = rest.countP (·.isLeave) + 1 := by
  rw [List.countP_append, countP_isLeave_eq_zero h, List.countP_cons_of_pos rfl, Nat.zero_add]

theorem Moves.tidy {tasks' : List (Task α)} {path' : Path α}
    (h : Moves g limit tasks path tasks' path') (ht : Tidy g limit tasks path) :
    Tidy g limit tasks' path' := by
  obtain ⟨hleaves, hsimple, hwithin⟩ := ht
  cases h with
  | leave =>
    rw [List.countP_cons_of_pos rfl] at hleaves
    refine ⟨?_, hsimple.sublist (List.tail_sublist path), ?_⟩
    · rw [List.length_tail]
      omega
    · rw [List.length_tail]
      omega
  | pass hpass =>
    rw [List.countP_cons_of_neg (Bool.eq_false_iff.1 hpass)] at hleaves
    exact ⟨hleaves, hsimple, hwithin⟩
  | enter hn hv hl hb =>
    rw [List.countP_cons_of_neg Bool.false_ne_true] at hleaves
    refine ⟨?_, simple_cons.2 ⟨hn, hsimple⟩, hl⟩
    rw [countP_append_leave hb, hleaves, List.length_cons]

theorem Steps.tidy (h : Steps g limit base w next) (hw : Tidy g limit w.tasks w.path) :
    Tidy g limit next.tasks next.path := by
  induction h with
  | refl => exact hw
  | tail _ hnext ih => exact hnext.moves.tidy ih

theorem tidy_start (query : α) : Tidy g limit (start query).tasks (start query).path where
  leaves := rfl
  simple := List.Pairwise.nil
  within := Nat.zero_le limit

/-- A leave in a stack is the first one after some tasks, or it is pending below that one. -/
theorem append_leave_eq {below rest' above : List (Task α)}
    (hb : ∀ task ∈ below, task.isLeave = false)
    (h : above ++ .leave :: rest = below ++ .leave :: rest') : (above = below ∧ rest = rest') ∨
      ∃ above', above = below ++ .leave :: above' ∧ rest' = above' ++ .leave :: rest := by
  rcases List.append_eq_append_iff.1 h with ⟨inner, rfl, hinner⟩ | ⟨inner, rfl, hinner⟩
  · cases inner with
    | nil => exact .inl ⟨(List.append_nil _).symm, (List.cons.inj hinner).2⟩
    | cons task inner =>
      obtain ⟨rfl, -⟩ := List.cons.inj hinner
      cases hb .leave (List.mem_append_right _ (List.mem_cons_self ..))
  · cases inner with
    | nil => exact .inl ⟨List.append_nil _, (List.cons.inj hinner).2.symm⟩
    | cons task inner =>
      obtain ⟨rfl, rfl⟩ := List.cons.inj hinner
      exact .inr ⟨inner, rfl, rfl⟩

/-- A task above `rest` enters a type: it is replaced by tasks for the type, and by one that leaves
the type again, and the type is put on the path. -/
structure Pushes (g : TypeGraph α) (limit base : Nat) (before after : Walk α) (s : Step α)
    (rest : List (Task α)) : Prop where
  next : Next g limit base before after
  task : before.tasks = .enter s.type :: rest
  path : after.path = s :: before.path
  pending : ∃ below, (∀ task ∈ below, task.isLeave = false) ∧ after.tasks = below ++ .leave :: rest

/-- A pending leave has been pending since a step was put on the path, and that step is still there,
under one step for each leave above. -/
theorem exists_pushes (h : Steps g limit base (start query) w) {above : List (Task α)}
    (hw : w.tasks = above ++ .leave :: rest) : ∃ before after s,
      Steps g limit base (start query) before ∧ Pushes g limit base before after s rest ∧
        StepsAbove g limit base (.leave :: rest) after w ∧
          ∃ inner, w.path = inner ++ after.path ∧ inner.length = above.countP (·.isLeave) := by
  induction h generalizing above rest with
  | refl => simp [start, List.cons_eq_append_iff] at hw
  | @tail w next hsteps hnext ih =>
    have hkept (above' : List (Task α)) (hw' : w.tasks = above' ++ .leave :: rest) :
        ∃ before after s, Steps g limit base (start query) before ∧
          Pushes g limit base before after s rest ∧
            StepsAbove g limit base (.leave :: rest) after next ∧
              ∃ inner, w.path = inner ++ after.path ∧ inner.length = above'.countP (·.isLeave) := by
      obtain ⟨before, after, s, hbefore, hpush, hafter, hinner⟩ := ih hw'
      exact ⟨before, after, s, hbefore, hpush,
        hafter.tail ⟨hnext, above, hw.symm⟩, hinner⟩
    have hmoves := hnext.moves
    rw [hw] at hmoves
    generalize hv : w.tasks = tasks at hmoves
    generalize hp : w.path = path at hmoves hkept
    generalize hp' : next.path = path' at hmoves ⊢
    generalize ht : above ++ .leave :: rest = tasks' at hmoves
    cases hmoves with
    | leave =>
      subst ht
      obtain ⟨before, after, s, hbefore, hpush, hafter, inner, rfl, hlen⟩ :=
        hkept (.leave :: above) hv
      rw [List.countP_cons_of_pos rfl] at hlen
      obtain ⟨r, inner, rfl⟩ := List.exists_cons_of_length_eq_add_one hlen
      exact ⟨before, after, s, hbefore, hpush, hafter, inner, rfl, Nat.succ.inj hlen⟩
    | @pass task _ _ hpass =>
      subst ht
      obtain ⟨before, after, s, hbefore, hpush, hafter, inner, rfl, hlen⟩ :=
        hkept (task :: above) hv
      rw [List.countP_cons_of_neg (Bool.eq_false_iff.1 hpass)] at hlen
      exact ⟨before, after, s, hbefore, hpush, hafter, inner, rfl, hlen⟩
    | @enter t v below below' _ hn hview hl hb =>
      rcases append_leave_eq hb ht with ⟨rfl, rfl⟩ | ⟨above', rfl, rfl⟩
      · refine ⟨w, next, stepOf t v, hsteps, ⟨hnext, hv, ?_, above, hb, hw⟩, .refl, [], ?_, ?_⟩
        · rw [hp, hp']
        · rw [hp']
          rfl
        · rw [countP_isLeave_eq_zero hb]
          rfl
      · obtain ⟨before, after, s, hbefore, hpush, hafter, inner, rfl, hlen⟩ :=
          hkept (.enter t :: above') hv
        rw [List.countP_cons_of_neg Bool.false_ne_true] at hlen
        refine ⟨before, after, s, hbefore, hpush, hafter, stepOf t v :: inner, rfl, ?_⟩
        rw [countP_append_leave hb, List.length_cons, hlen]

/-! ## Ends -/

/-- No task is left and the answer is what has been met, or the task on top fails with the
answer. -/
def Ends (g : TypeGraph α) (limit base : Nat) (last : Walk α) (answer : Except Error (Found α)) :
    Prop :=
  (last.step g limit base = .ok none ∧
    answer = .ok ⟨last.fields.toList, last.candidates.toList⟩) ∨
      ∃ e, last.step g limit base = .error e ∧ answer = .error e

/-- Some tasks later a walk ends. -/
theorem exists_ends (w : Walk α) :
    ∃ last, Steps g limit base w last ∧ Ends g limit base last (w.run g limit base) := by
  induction hr : w.ranks limit using WellFounded.induction
    (WellFoundedRelation.wf (α := Ranks)) generalizing w with
  | _ ranks ih =>
    subst hr
    rw [run_eq]
    cases hs : w.step g limit base with
    | error e => exact ⟨w, .refl, .inr ⟨e, hs, rfl⟩⟩
    | ok answer =>
      cases answer with
      | none => exact ⟨w, .refl, .inl ⟨hs, rfl⟩⟩
      | some next =>
        obtain ⟨last, hsteps, hends⟩ := ih _ (ranks_step hs) next rfl
        exact ⟨last, .head hs hsteps, hends⟩

/-- A walk ends, and it has found what a depth-first exploration finds, in the same order, or fails
as the exploration fails.  On its way a leave is pending for each step of the path, which is simple
and within the limit; and a leave takes off the step that was put on the path when the leave was put
on the stack. -/
theorem run_explores (g : TypeGraph α) (limit base : Nat) (query : α) :
    (start query).run g limit base = (explore g limit base limit [] [] query >>= fun found =>
      .ok ⟨found.fields, found.sightings.map (·.candidate)⟩) ∧
    (∃ last, Steps g limit base (start query) last ∧
      Ends g limit base last ((start query).run g limit base)) ∧
    ∀ w, Steps g limit base (start query) w →
      w.tasks.countP (·.isLeave) = w.path.length ∧ Simple g w.path ∧ w.path.length ≤ limit ∧
      ∀ rest, w.tasks = .leave :: rest → ∃ before after s,
        Steps g limit base (start query) before ∧ Pushes g limit base before after s rest ∧
          StepsAbove g limit base (.leave :: rest) after w ∧ w.path = s :: before.path ∧
            Next g limit base w { w with tasks := rest, path := before.path } := by
  refine ⟨run_start limit base query, exists_ends _, fun w hw => ?_⟩
  obtain ⟨hleaves, hsimple, hwithin⟩ := hw.tidy (tidy_start query)
  refine ⟨hleaves, hsimple, hwithin, fun rest hrest => ?_⟩
  obtain ⟨before, after, s, hbefore, hpush, hafter, inner, hpath, hlen⟩ :=
    exists_pushes hw (show w.tasks = [] ++ .leave :: rest from hrest)
  obtain rfl := List.length_eq_zero_iff.1 hlen
  rw [List.nil_append, hpush.path] at hpath
  refine ⟨before, after, s, hbefore, hpush, hafter, hpath, ?_⟩
  rw [Next, step, hrest, hpath]
  rfl

end Walk
end TypeIdentity.Promotion
