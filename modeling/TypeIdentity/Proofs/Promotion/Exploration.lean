import TypeIdentity.Proofs.Promotion.Paths
import TypeIdentity.Proofs.Promotion.Walks

/-! # Walks as depth-first explorations

The walk that is driven by a stack of tasks collects what a recursive depth-first exploration finds.
The exploration also records at which choices each candidate was met.
-/
namespace TypeIdentity.Promotion
variable {α : Type} {g : TypeGraph α}

/-- A candidate and where it was met. -/
structure Sighting (α : Type) where
  site : List Nat × Nat
  candidate : Candidate α

structure Survey (α : Type) where
  fields : List String
  sightings : List (Sighting α)

/-- The candidates at the end of a path. -/
def sightingsAt (base : Nat) (choices : List Nat) (path : Path α) (v : View α) :
    List (Sighting α) :=
  (v.offered.zipIdx.filter fun m => isExported m.1.name).map fun m =>
    ⟨(choices, m.2), ⟨m.1, path.crossings - base, path.throughPointer⟩⟩

/-- Explores a type from the end of a path that may grow by `budget` types. -/
def explore (g : TypeGraph α) (limit base : Nat) :
    (budget : Nat) → (choices : List Nat) → (path : Path α) → α → Except Error (Survey α)
  | budget, choices, path, t => do
    if path.visits g t then return ⟨[], []⟩
    else
      let view ← g.view t
      match budget with
      | 0 => throw (.traversalLimit limit (g.describe t))
      | budget + 1 =>
        let path := stepOf t view :: path
        let below ← (← hops g view).mapM fun h =>
          explore g limit base budget (h.1 :: choices) path h.2
        return ⟨view.fieldNames ++ below.flatMap (·.fields),
          below.flatMap (·.sightings) ++ sightingsAt base choices path view⟩

section Explore
variable {limit base : Nat} {choices : List Nat} {path : Path α} {t : α}

theorem explore_visited (budget : Nat) (h : path.visits g t = true) :
    explore g limit base budget choices path t = .ok ⟨[], []⟩ := by
  unfold explore
  rw [if_pos h]
  rfl

theorem explore_unviewed {e : Error} (budget : Nat) (hn : path.visits g t = false)
    (hv : g.view t = .error e) : explore g limit base budget choices path t = .error e := by
  unfold explore
  rw [if_neg (Bool.eq_false_iff.1 hn), hv]
  rfl

theorem explore_limited {v : View α} (hn : path.visits g t = false) (hv : g.view t = .ok v) :
    explore g limit base 0 choices path t = .error (.traversalLimit limit (g.describe t)) := by
  rw [explore, if_neg (Bool.eq_false_iff.1 hn), hv]
  rfl

theorem explore_new {v : View α} (budget : Nat) (hn : path.visits g t = false)
    (hv : g.view t = .ok v) : explore g limit base (budget + 1) choices path t =
      (hops g v >>= fun l => l.mapM (fun h =>
          explore g limit base budget (h.1 :: choices) (stepOf t v :: path) h.2) >>= fun below =>
        .ok ⟨v.fieldNames ++ below.flatMap (·.fields),
          below.flatMap (·.sightings) ++ sightingsAt base choices (stepOf t v :: path) v⟩) := by
  rw [explore, if_neg (Bool.eq_false_iff.1 hn), hv]
  rfl

end Explore

/-! ## Walks explore -/

def Walk.extend (w : Walk α) (found : Survey α) : Walk α :=
  { w with
    fields := w.fields ++ found.fields.toArray
    candidates := w.candidates ++ (found.sightings.map (·.candidate)).toArray }

theorem sightingsAt_candidates (base : Nat) (choices : List Nat) (path : Path α) (v : View α) :
    (sightingsAt base choices path v).map (·.candidate) =
      (v.offered.filter fun m => isExported m.name).map fun m =>
        ⟨m, path.crossings - base, path.throughPointer⟩ := by
  rw [sightingsAt, List.map_map]
  exact map_filter_zipIdx (fun m : DeclaredMethod α => isExported m.name)
    (fun m => (⟨m, path.crossings - base, path.throughPointer⟩ : Candidate α)) v.offered

theorem Walk.extend_extend (w : Walk α) (a b : Survey α) :
    (w.extend a).extend b = w.extend ⟨a.fields ++ b.fields, a.sightings ++ b.sightings⟩ := by
  simp [extend]

theorem Walk.record_eq (base : Nat) (choices : List Nat) (v : View α) (w : Walk α) :
    w.record base v.offered = w.extend ⟨[], sightingsAt base choices w.path v⟩ := by
  rw [extend, sightingsAt_candidates, record]
  simp

theorem Walk.collect_eq {v : View α} (h : v.isInterface = false) (base : Nat) (w : Walk α) :
    w.collect base v = w.extend ⟨v.fieldNames, []⟩ := by
  rcases v with (_ | _ | _ | _ | _ | _ | _ | _ | _) | _
  case shape.interface => cases h
  all_goals simp [collect, extend, View.fieldNames]

section Run
variable {limit base budget : Nat} {l : List (Nat × α)}

/-- Entering a type collects what exploring it finds. -/
def Explores (g : TypeGraph α) (limit base budget : Nat) : Prop :=
  ∀ (choices : List Nat) (t : α) (rest : List (Task α)) (path : Path α) (fields : Array String)
    (candidates : Array (Candidate α)), budget = limit - path.length →
    Walk.run g limit base ⟨.enter t :: rest, path, fields, candidates⟩ =
      (explore g limit base budget choices path t >>= fun found =>
        Walk.run g limit base (Walk.extend ⟨rest, path, fields, candidates⟩ found))

theorem run_enters (h : Explores g limit base budget) (choices : List Nat) (l : List (Nat × α))
    (rest : List (Task α)) (path : Path α) (fields : Array String)
    (candidates : Array (Candidate α)) (hb : budget = limit - path.length) :
    Walk.run g limit base ⟨l.map (fun h => .enter h.2) ++ rest, path, fields, candidates⟩ =
      (l.mapM (fun h => explore g limit base budget (h.1 :: choices) path h.2) >>= fun below =>
        Walk.run g limit base (Walk.extend ⟨rest, path, fields, candidates⟩
          ⟨below.flatMap (·.fields), below.flatMap (·.sightings)⟩)) := by
  induction l generalizing fields candidates with
  | nil => simp [Walk.extend, pure, Except.pure, bind, Except.bind]
  | cons x l ih =>
    rw [List.map_cons, List.cons_append, h (x.1 :: choices) x.2 _ path fields candidates hb,
      List.mapM_cons]
    cases explore g limit base budget (x.1 :: choices) path x.2 with
    | error e => rfl
    | ok found =>
      simp only [Walk.extend, bind, Except.bind, pure, Except.pure] at ih ⊢
      rw [ih]
      cases l.mapM fun h => explore g limit base budget (h.1 :: choices) path h.2 with
      | error e => rfl
      | ok below => simp

theorem run_declarations {v : View α} (h : v.isInterface = false) (choices : List Nat)
    (rest : List (Task α)) (s : Step α) (path : Path α) (fields : Array String)
    (candidates : Array (Candidate α)) (found : Survey α) :
    Walk.run g limit base (Walk.extend ⟨declarations v ++ .leave :: rest, s :: path, fields,
        candidates⟩ found) =
      Walk.run g limit base (Walk.extend ⟨rest, path, fields, candidates⟩
        ⟨found.fields, found.sightings ++ sightingsAt base choices (s :: path) v⟩) := by
  cases v with
  | named n =>
    have hrecord := Walk.record_eq base choices (.named n)
      (Walk.extend ⟨.leave :: rest, s :: path, fields, candidates⟩ found)
    rw [Walk.extend_extend, List.append_nil] at hrecord
    exact (Walk.run_declare n.methods).trans ((congrArg _ hrecord).trans (Walk.run_leave s))
  | shape level =>
    have hnone : sightingsAt base choices (s :: path) (.shape level) = [] := by
      cases level <;> first | rfl | cases h
    rw [hnone, List.append_nil]
    exact Walk.run_leave s

theorem run_inside (h : Explores g limit base budget) {v : View α} (hh : hops g v = .ok l)
    (choices : List Nat) (rest : List (Task α)) (s : Step α) (path : Path α)
    (fields : Array String) (candidates : Array (Candidate α))
    (hb : budget = limit - (s :: path).length) :
    Walk.run g limit base (Walk.collect base v ⟨l.map (fun h => .enter h.2) ++
        (declarations v ++ .leave :: rest), s :: path, fields, candidates⟩) =
      (l.mapM (fun h =>
          explore g limit base budget (h.1 :: choices) (s :: path) h.2) >>= fun below =>
        Walk.run g limit base (Walk.extend ⟨rest, path, fields, candidates⟩
          ⟨v.fieldNames ++ below.flatMap (·.fields),
            below.flatMap (·.sightings) ++ sightingsAt base choices (s :: path) v⟩)) := by
  cases hi : v.isInterface with
  | false =>
    have hcollect (tasks : List (Task α)) : Walk.extend ⟨tasks, s :: path, fields, candidates⟩
        ⟨v.fieldNames, []⟩ = ⟨tasks, s :: path, fields ++ v.fieldNames.toArray, candidates⟩ := by
      simp [Walk.extend]
    rw [Walk.collect_eq hi, hcollect, run_enters h choices l _ _ _ _ hb]
    congr
    funext below
    rw [← hcollect, Walk.extend_extend, run_declarations hi choices]
    rfl
  | true =>
    obtain ⟨ms, rfl⟩ : ∃ ms, v = .shape (.interface ms) := by
      rcases v with (_ | _ | _ | _ | _ | _ | _ | ms | _) | _
      case shape.interface => exact ⟨ms, rfl⟩
      all_goals cases hi
    obtain rfl : l = [] := (Except.ok.inj hh).symm
    have hrecord := Walk.record_eq base choices (.shape (.interface ms))
      ⟨.leave :: rest, s :: path, fields, candidates⟩
    exact (congrArg _ hrecord).trans (Walk.run_leave s)

theorem explores (g : TypeGraph α) (limit base budget : Nat) : Explores g limit base budget := by
  induction budget with
  | zero =>
    intro choices t rest path fields candidates hb
    have hl : ¬path.length < limit := by omega
    cases hn : path.visits g t with
    | true =>
      rw [Walk.run_visited hn, explore_visited 0 hn]
      simp [Walk.extend, bind, Except.bind]
    | false =>
      cases hv : g.view t with
      | error e =>
        rw [Walk.run_unviewed hn hv, explore_unviewed 0 hn hv]
        rfl
      | ok v =>
        rw [Walk.run_limited hn hv hl, explore_limited hn hv]
        rfl
  | succ budget ih =>
    intro choices t rest path fields candidates hb
    have hl : path.length < limit := by omega
    cases hn : path.visits g t with
    | true =>
      rw [Walk.run_visited hn, explore_visited _ hn]
      simp [Walk.extend, bind, Except.bind]
    | false =>
      cases hv : g.view t with
      | error e =>
        rw [Walk.run_unviewed hn hv, explore_unviewed _ hn hv]
        rfl
      | ok v =>
        rw [Walk.run_new hn hv hl, explore_new _ hn hv]
        cases hh : hops g v with
        | error e => rfl
        | ok l =>
          have hb' : budget = limit - (stepOf t v :: path).length := by
            rw [List.length_cons]
            omega
          have hinside := run_inside ih hh choices rest (stepOf t v) path fields candidates hb'
          simp only [bind, Except.bind] at hinside ⊢
          rw [hinside]
          cases l.mapM fun h =>
            explore g limit base budget (h.1 :: choices) (stepOf t v :: path) h.2 <;> rfl

end Run

/-- The walk before its first task. -/
def Walk.start (query : α) : Walk α := ⟨[.enter query], [], #[], #[]⟩

/-- A whole walk finds what the exploration finds, and fails as it does. -/
theorem run_start (limit base : Nat) (query : α) : (Walk.start query).run g limit base =
    (explore g limit base limit [] [] query >>= fun found =>
      .ok ⟨found.fields, found.sightings.map (·.candidate)⟩) := by
  rw [Walk.start, explores g limit base limit [] query [] [] #[] #[] rfl]
  cases explore g limit base limit [] [] query with
  | error e => rfl
  | ok found =>
    simp only [bind, Except.bind]
    rw [Walk.run_eq]
    simp [Walk.step, Walk.extend, bind, Except.bind]

/-- The promoted methods, by exploration. -/
theorem methods_eq (limit : Nat) (query : α) : methods g limit query =
    (ownDepth g query >>= fun base => explore g limit base limit [] [] query >>= fun found =>
      .ok (Found.promoted ⟨found.fields, found.sightings.map (·.candidate)⟩)) := by
  unfold methods
  cases ownDepth g query with
  | error e => rfl
  | ok base =>
    have hrun := run_start (g := g) limit base query
    simp only [Walk.start, bind, Except.bind] at hrun ⊢
    rw [hrun]
    cases explore g limit base limit [] [] query <;> rfl

/-- Methods that are found come from an exploration within the limit. -/
theorem methods_ok {limit : Nat} {query : α} {result : List (Promoted α)}
    (h : methods g limit query = .ok result) : ∃ base found, ownDepth g query = .ok base ∧
      explore g limit base limit [] [] query = .ok found ∧
        result = Found.promoted ⟨found.fields, found.sightings.map (·.candidate)⟩ := by
  rw [methods_eq] at h
  cases hbase : ownDepth g query with
  | error e => simp [hbase, bind, Except.bind] at h
  | ok base =>
    cases hfound : explore g limit base limit [] [] query with
    | error e => simp [hbase, hfound, bind, Except.bind] at h
    | ok found =>
      simp only [hbase, hfound, bind, Except.bind, Except.ok.injEq] at h
      exact ⟨base, found, rfl, hfound, h.symm⟩

theorem methods_of_explore {limit base : Nat} {query : α} {found : Survey α}
    (hown : ownDepth g query = .ok base)
    (hfound : explore g limit base limit [] [] query = .ok found) : methods g limit query =
      .ok (Found.promoted ⟨found.fields, found.sightings.map (·.candidate)⟩) := by
  rw [methods_eq, hown]
  simp only [bind, Except.bind, hfound]

end TypeIdentity.Promotion
