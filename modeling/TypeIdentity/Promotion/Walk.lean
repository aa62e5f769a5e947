import TypeIdentity.Promotion.Path
import TypeIdentity.Promotion.Ranks

/-! # Walks that collect methods

The members that may be promoted to a type are collected by a walk over its embedded types, driven
by a stack of tasks.  The walk ends because a step replaces the task on top of the stack by tasks of
smaller ranks.
-/
namespace TypeIdentity.Promotion
variable {α : Type}

/-- A method met on a walk. -/
structure Candidate (α : Type) where
  method : DeclaredMethod α
  /-- Named types crossed on the way from the query. -/
  depth : Nat
  throughPointer : Bool

/-- What is left to do; a type that was entered has to be left again. -/
inductive Task (α : Type)
  | enter (type : α)
  | declare (methods : List (DeclaredMethod α))
  | leave

/-- A walk in progress: the stack of tasks, the path, and what has been met. -/
structure Walk (α : Type) where
  tasks : List (Task α)
  path : Path α
  fields : Array String
  candidates : Array (Candidate α)

/-- The fields and candidates met on a finished walk, in order. -/
structure Found (α : Type) where
  fields : List String
  candidates : List (Candidate α)

/-! ## Ranks of tasks -/

/-- How far the path may still grow when a task is done, for tasks that enter a type. -/
def taskRanks (limit : Nat) : (length : Nat) → List (Task α) → List Nat
  | _, [] => []
  | length, .enter _ :: rest => (limit - length) :: taskRanks limit length rest
  | length, .declare _ :: rest => 0 :: taskRanks limit length rest
  | length, .leave :: rest => 0 :: taskRanks limit (length - 1) rest

def Task.isLeave : Task α → Bool
  | leave => true
  | _ => false

/-- Tasks put before the one that leaves their type have ranks below that of entering it. -/
theorem taskRanks_append {limit length : Nat} {tasks rest : List (Task α)}
    (h : ∀ t ∈ tasks, t.isLeave = false) :
    ∃ ranks, taskRanks limit (length + 1) (tasks ++ .leave :: rest) =
      (ranks ++ [0]) ++ taskRanks limit length rest ∧ ∀ r ∈ ranks, r ≤ limit - (length + 1) := by
  induction tasks with
  | nil => exact ⟨[], by simp [taskRanks], by simp⟩
  | cons t tasks ih =>
    obtain ⟨ranks, he, hr⟩ := ih fun u hu => h u (List.mem_cons_of_mem _ hu)
    cases t with
    | leave => simpa [Task.isLeave] using h .leave (List.mem_cons_self ..)
    | enter t =>
      refine ⟨(limit - (length + 1)) :: ranks, by simp [taskRanks, he], fun r hm => ?_⟩
      rcases List.mem_cons.1 hm with rfl | hm
      · exact Nat.le_refl _
      · exact hr r hm
    | declare ms =>
      refine ⟨0 :: ranks, by simp [taskRanks, he], fun r hm => ?_⟩
      rcases List.mem_cons.1 hm with rfl | hm
      · exact Nat.zero_le _
      · exact hr r hm

/-! ## Steps -/

namespace Walk

/-- Records the exported ones of some methods at the end of the path. -/
def record (base : Nat) (methods : List (DeclaredMethod α)) (w : Walk α) : Walk α :=
  let met := (methods.filter fun m => isExported m.name).map fun m =>
    ⟨m, w.path.crossings - base, w.path.throughPointer⟩
  { w with candidates := w.candidates ++ met.toArray }

/-- Whether methods are promoted through a pointer to this type. -/
def follows (g : TypeGraph α) (elem : α) : Except Error Bool := do
  if (← g.view elem).isPointer then return false
  else return !(← g.isInterface elem)

/-- The tasks that a type on the path gives rise to, first one first. -/
def subtasks (g : TypeGraph α) : View α → Except Error (List (Task α))
  | .named n => .ok [.enter n.underlying, .declare n.methods]
  | .shape (.pointer e) => do if ← follows g e then return [.enter e] else return []
  | .shape (.struct fs) => .ok ((fs.filter (·.embedded)).map fun f => .enter f.type)
  | _ => .ok []

/-- The members that a type on the path contributes by itself. -/
def collect (base : Nat) (view : View α) (w : Walk α) : Walk α :=
  match view with
  | .shape (.struct fs) => { w with fields := w.fields ++ (fs.map (·.name)).toArray }
  | .shape (.interface ms) => w.record base (ms.map (·.declared))
  | _ => w

theorem subtasks_isLeave {g : TypeGraph α} {view : View α} {tasks : List (Task α)}
    (h : subtasks g view = .ok tasks) : ∀ t ∈ tasks, t.isLeave = false := by
  unfold subtasks at h
  split at h
  · simp at h
    subst h
    simp [Task.isLeave]
  · next e =>
    cases hf : follows g e with
    | error => simp [hf, bind, Except.bind] at h
    | ok b =>
      cases b <;> simp [hf, bind, Except.bind, pure, Except.pure] at h <;> subst h <;>
        simp [Task.isLeave]
  · simp at h
    subst h
    rintro t ht
    obtain ⟨f, -, rfl⟩ := List.mem_map.1 ht
    rfl
  · simp at h
    simp [h]

@[simp] theorem tasks_collect (base : Nat) (view : View α) (w : Walk α) :
    (w.collect base view).tasks = w.tasks := by
  unfold collect; split <;> rfl

@[simp] theorem path_collect (base : Nat) (view : View α) (w : Walk α) :
    (w.collect base view).path = w.path := by
  unfold collect; split <;> rfl

/-- Carries out the task on top of the stack; `none` when there is none. -/
def step (g : TypeGraph α) (limit base : Nat) (w : Walk α) : Except Error (Option (Walk α)) :=
  match w.tasks with
  | [] => .ok none
  | .leave :: rest => .ok (some { w with tasks := rest, path := w.path.tail })
  | .declare methods :: rest => .ok (some (record base methods { w with tasks := rest }))
  | .enter t :: rest =>
    if w.path.visits g t then .ok (some { w with tasks := rest })
    else
      match g.view t with
      | .error e => .error e
      | .ok view =>
        match w.path.enter g limit t view with
        | .error e => .error e
        | .ok path =>
          match subtasks g view with
          | .error e => .error e
          | .ok tasks =>
            .ok (some ({ w with tasks := tasks ++ Task.leave :: rest, path }.collect base view))

/-- What is still pending, as ranks. -/
def ranks (limit : Nat) (w : Walk α) : Ranks := ⟨taskRanks limit w.path.length w.tasks⟩

/-- A step replaces the first rank by smaller ones. -/
theorem ranks_step {g : TypeGraph α} {limit base : Nat} {w next : Walk α}
    (h : w.step g limit base = .ok (some next)) : (next.ranks limit).Replaces (w.ranks limit) := by
  unfold step at h
  split at h
  · simp at h
  · next rest ht =>
    simp at h
    subst h
    exact ⟨0, taskRanks limit (w.path.length - 1) rest, [], by simp [ranks, ht, taskRanks],
      by simp [ranks], by simp⟩
  · next methods rest ht =>
    simp at h
    subst h
    exact ⟨0, taskRanks limit w.path.length rest, [], by simp [ranks, ht, taskRanks],
      by simp [ranks, record], by simp⟩
  · next t rest ht =>
    split at h
    · simp at h
      subst h
      exact ⟨_, taskRanks limit w.path.length rest, [], by simp [ranks, ht, taskRanks]; rfl,
        by simp [ranks], by simp⟩
    · split at h <;> try simp at h
      next view hv =>
        split at h <;> try simp at h
        next path hp =>
          split at h <;> simp at h
          next tasks hs =>
            subst h
            obtain ⟨hlt, hlen⟩ := Path.length_of_enter hp
            obtain ⟨below, he, hr⟩ := @taskRanks_append _ limit w.path.length _ rest
              (subtasks_isLeave hs)
            refine ⟨limit - w.path.length, taskRanks limit w.path.length rest, below ++ [0],
              by simp [ranks, ht, taskRanks], by simp [ranks, hlen, he], fun x hx => ?_⟩
            rcases List.mem_append.1 hx with hx | hx
            · have := hr x hx
              omega
            · have := List.mem_singleton.1 hx
              omega

/-- Carries out all tasks. -/
def run (g : TypeGraph α) (limit base : Nat) (w : Walk α) : Except Error (Found α) :=
  match _h : w.step g limit base with
  | .error e => .error e
  | .ok none => .ok ⟨w.fields.toList, w.candidates.toList⟩
  | .ok (some next) => run g limit base next
termination_by w.ranks limit
decreasing_by exact ranks_step _h

end Walk

end TypeIdentity.Promotion
