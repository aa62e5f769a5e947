import TypeIdentity.Promotion.Walk

/-! # Steps of walks

What a walk does with the task on top of its stack, and the types that a type makes it enter.
-/
namespace TypeIdentity.Promotion
variable {α : Type} {g : TypeGraph α}

theorem map_filter_zipIdx {β γ : Type} (keep : β → Bool) (f : β → γ) (l : List β) :
    (l.zipIdx.filter fun x => keep x.1).map (fun x => f x.1) = (l.filter keep).map f := by
  have hfst : l.zipIdx.map Prod.fst = l := List.zipIdx_map_fst 0 l
  conv => rhs; rw [← hfst, List.filter_map, List.map_map]
  rfl

/-- The step of a path at a type with a given view. -/
def stepOf (t : α) (v : View α) : Step α := ⟨t, v.isNamed, v.isPointer⟩

/-- The steps that a path can take from a type with a given view. -/
def hops (g : TypeGraph α) : View α → Except Error (List (Nat × α))
  | .named n => .ok [(0, n.underlying)]
  | .shape (.pointer e) => do if ← Walk.follows g e then return [(0, e)] else return []
  | .shape (.struct fs) =>
    .ok ((fs.zipIdx.filter (·.1.embedded)).map fun f => (f.2, f.1.type))
  | _ => .ok []

/-- The tasks after those that enter other types. -/
def declarations : View α → List (Task α)
  | .named n => [.declare n.methods]
  | .shape _ => []

theorem subtasks_eq (v : View α) : Walk.subtasks g v =
    (hops g v >>= fun l => .ok (l.map (fun h => .enter h.2) ++ declarations v)) := by
  rcases v with (_ | _ | _ | _ | _ | _ | fs | _ | e) | n
  case shape.struct =>
    have hfields := map_filter_zipIdx (fun f : Field α => f.embedded) (fun f => Task.enter f.type) fs
    simp only [Walk.subtasks, hops, bind, Except.bind, List.map_map, Function.comp_def, hfields,
      declarations, List.append_nil]
  case shape.pointer =>
    cases hf : Walk.follows g e with
    | error => simp only [Walk.subtasks, hops, hf, bind, Except.bind]
    | ok b =>
      simp only [Walk.subtasks, hops, hf, bind, Except.bind]
      cases b <;> rfl
  all_goals rfl

namespace Walk

theorem run_eq (limit base : Nat) (w : Walk α) : w.run g limit base =
    (w.step g limit base >>= fun
      | none => .ok ⟨w.fields.toList, w.candidates.toList⟩
      | some next => next.run g limit base) := by
  rw [run]
  split
  · next hs => simp only [hs, bind, Except.bind]
  · next hs => simp only [hs, bind, Except.bind]
  · next hs => simp only [hs, bind, Except.bind]

variable {limit base : Nat} {rest : List (Task α)} {path : Path α} {fields : Array String}
  {candidates : Array (Candidate α)}

theorem run_leave (s : Step α) : run g limit base ⟨.leave :: rest, s :: path, fields, candidates⟩ =
    run g limit base ⟨rest, path, fields, candidates⟩ := by
  rw [run_eq]
  rfl

theorem run_declare (ms : List (DeclaredMethod α)) :
    run g limit base ⟨.declare ms :: rest, path, fields, candidates⟩ =
      run g limit base (record base ms ⟨rest, path, fields, candidates⟩) := by
  rw [run_eq]
  rfl

theorem run_visited {t : α} (h : path.visits g t = true) :
    run g limit base ⟨.enter t :: rest, path, fields, candidates⟩ =
      run g limit base ⟨rest, path, fields, candidates⟩ := by
  rw [run_eq]
  simp only [step, h, if_true]
  rfl

theorem run_unviewed {t : α} {e : Error} (hn : path.visits g t = false) (hv : g.view t = .error e) :
    run g limit base ⟨.enter t :: rest, path, fields, candidates⟩ = .error e := by
  rw [run_eq]
  simp only [step, hn, hv, Bool.false_eq_true, if_false]
  rfl

theorem run_limited {t : α} {v : View α} (hn : path.visits g t = false) (hv : g.view t = .ok v)
    (hl : ¬path.length < limit) : run g limit base ⟨.enter t :: rest, path, fields, candidates⟩ =
      .error (.traversalLimit limit (g.describe t)) := by
  rw [run_eq]
  simp only [step, hn, hv, Path.enter, if_neg hl, Bool.false_eq_true, if_false]
  rfl

theorem run_new {t : α} {v : View α} (hn : path.visits g t = false) (hv : g.view t = .ok v)
    (hl : path.length < limit) :
    run g limit base ⟨.enter t :: rest, path, fields, candidates⟩ = (hops g v >>= fun l =>
      run g limit base (collect base v ⟨l.map (fun h => .enter h.2) ++
        (declarations v ++ .leave :: rest), stepOf t v :: path, fields, candidates⟩)) := by
  rw [run_eq]
  simp only [step, hn, hv, Path.enter, if_pos hl, Bool.false_eq_true, if_false, subtasks_eq]
  cases hops g v with
  | error e => rfl
  | ok l =>
    simp only [bind, Except.bind, List.append_assoc]
    rfl

end Walk
end TypeIdentity.Promotion
