import TypeIdentity.Promotion.Fields
import TypeIdentity.Promotion.Methods
import TypeIdentity.Proofs.Promotion.Walks
import TypeIdentity.Proofs.Views

/-! # Member resolution in twin graphs

Two type graphs are twins when the views of both are images of common views and their identities
agree.  Member resolution knows types by their views and their identity only, so in twin graphs it
runs in lockstep: either both runs exceed the limit of the traversal, or their results are images of
one result.
-/
namespace TypeIdentity
variable {α β γ δ : Type}

def Field.map (f : α → β) (x : Field α) : Field β := ⟨x.name, f x.type, x.tag, x.embedded⟩

/-- Both computations exceed the traversal limit, or both return images of one value. -/
inductive Lockstep (p : γ → α) (q : γ → β) : Except Error α → Except Error β → Prop
  | limit (limit : Nat) (s t : String) :
      Lockstep p q (.error (.traversalLimit limit s)) (.error (.traversalLimit limit t))
  | ok (c : γ) : Lockstep p q (.ok (p c)) (.ok (q c))

namespace Lockstep
variable {α' β' γ' : Type} {p : γ → α} {q : γ → β} {p' : γ' → α'} {q' : γ' → β'}

theorem cases_eq {x : Except Error α} {y : Except Error β} (h : Lockstep p q x y) :
    (∃ limit s t, x = .error (.traversalLimit limit s) ∧ y = .error (.traversalLimit limit t)) ∨
      ∃ c, x = .ok (p c) ∧ y = .ok (q c) := by
  cases h with
  | limit n s t => exact .inl ⟨n, s, t, rfl, rfl⟩
  | ok c => exact .inr ⟨c, rfl, rfl⟩

theorem bind {x : Except Error α} {y : Except Error β} {f : α → Except Error α'}
    {g : β → Except Error β'} (h : Lockstep p q x y)
    (hk : ∀ c, Lockstep p' q' (f (p c)) (g (q c))) : Lockstep p' q' (x >>= f) (y >>= g) := by
  cases h with
  | limit n s t => exact limit n s t
  | ok c => exact hk c

theorem mapM {f : α → Except Error α'} {g : β → Except Error β'} {cs : List γ}
    (h : ∀ c ∈ cs, Lockstep p' q' (f (p c)) (g (q c))) :
    Lockstep (List.map p') (List.map q') ((cs.map p).mapM f) ((cs.map q).mapM g) := by
  induction cs with
  | nil => exact ok []
  | cons c cs ih =>
    rw [List.map_cons, List.map_cons, List.mapM_cons, List.mapM_cons]
    apply bind (h c (List.mem_cons_self ..))
    intro d
    exact bind (ih fun e he => h e (List.mem_cons_of_mem _ he)) fun ds => ok (d :: ds)

end Lockstep

/-- Graphs whose views are images of common views, but for the type arguments. -/
structure Twins (g : TypeGraph α) (h : TypeGraph β) (p : γ → α) (q : γ → β) : Prop where
  view : ∀ c, ∃ (v : View γ) (a : TypeArgs α) (b : TypeArgs β),
    g.view (p c) = .ok (v.image p a) ∧ h.view (q c) = .ok (v.image q b)
  same : ∀ c d, g.same (p c) (p d) = h.same (q c) (q d)

namespace Promotion

/-! ## Images of walks -/

def Step.map (f : α → β) (s : Step α) : Step β := ⟨f s.type, s.isNamed, s.isPointer⟩

def Task.map (f : α → β) : Task α → Task β
  | enter t => enter (f t)
  | declare ms => declare (ms.map (·.map f))
  | leave => leave

@[simp] theorem Task.map_enter (f : α → β) (t : α) : (enter t).map f = enter (f t) := rfl

@[simp] theorem Task.map_declare (f : α → β) (ms : List (DeclaredMethod α)) :
    (declare ms).map f = declare (ms.map (·.map f)) := rfl

@[simp] theorem Task.map_leave (f : α → β) : (leave : Task α).map f = leave := rfl

def Candidate.map (f : α → β) (c : Candidate α) : Candidate β :=
  ⟨c.method.map f, c.depth, c.throughPointer⟩

def Promoted.map (f : α → β) (m : Promoted α) : Promoted β := ⟨m.method.map f, m.depth⟩

def Found.map (f : α → β) (found : Found α) : Found β :=
  ⟨found.fields, found.candidates.map (·.map f)⟩

def Walk.map (f : α → β) (w : Walk α) : Walk β :=
  ⟨w.tasks.map (·.map f), w.path.map (·.map f), w.fields, w.candidates.map (·.map f)⟩

@[simp] theorem Path.crossings_map (f : α → β) (path : Path α) :
    Path.crossings (path.map (·.map f)) = path.crossings := by
  rw [crossings, List.countP_map]
  rfl

@[simp] theorem Path.throughPointer_map (f : α → β) (path : Path α) :
    Path.throughPointer (path.map (·.map f)) = path.throughPointer := by
  rw [throughPointer, List.any_map]
  rfl

@[simp] theorem Walk.record_map (f : α → β) (base : Nat) (ms : List (DeclaredMethod α))
    (w : Walk α) :
    record base (ms.map (·.map f)) (w.map f) = (record base ms w).map f := by
  simp [record, map, List.filter_map, Function.comp_def, DeclaredMethod.map, Candidate.map]

@[simp] theorem Walk.collect_image (f : α → β) (a : TypeArgs β) (base : Nat) (v : View α)
    (w : Walk α) :
    collect base (v.image f a) (w.map f) = (collect base v w).map f := by
  rcases v with (_ | _ | _ | _ | _ | _ | fs | ms | _) | _
  case shape.struct =>
    simp [collect, View.image, Shape.mapChildren, map, Function.comp_def]
  case shape.interface =>
    have hms : (ms.map fun m => (⟨m.name, m.signature.map f⟩ : Method β)).map (·.declared) =
        (ms.map (·.declared)).map (·.map f) := by
      simp [Method.declared, DeclaredMethod.map]
    simp only [collect, View.image, Shape.mapChildren, hms, record_map]
  all_goals rfl

/-! ## Steps -/

section Walks
variable {g : TypeGraph α} {h : TypeGraph β} {p : γ → α} {q : γ → β}

theorem visits_twins (ht : Twins g h p q) (path : Path γ) (c : γ) :
    Path.visits g (path.map (·.map p)) (p c) = Path.visits h (path.map (·.map q)) (q c) := by
  simp only [Path.visits, List.any_map, Function.comp_def, Step.map, ht.same]

theorem enter_twins (limit : Nat) (path : Path γ) (c : γ) (v : View γ) (a : TypeArgs α)
    (b : TypeArgs β) :
    Lockstep (List.map (Step.map p)) (List.map (Step.map q))
      (Path.enter g limit (path.map (·.map p)) (p c) (v.image p a))
      (Path.enter h limit (path.map (·.map q)) (q c) (v.image q b)) := by
  simp only [Path.enter, List.length_map, View.isNamed_image, View.isPointer_image]
  split
  · exact .ok (⟨c, v.isNamed, v.isPointer⟩ :: path)
  · exact .limit ..

theorem isInterface_twins (ht : Twins g h p q) (c : γ) :
    ∃ b, g.isInterface (p c) = .ok b ∧ h.isInterface (q c) = .ok b := by
  obtain ⟨v, a, b, hp, hq⟩ := ht.view c
  cases v with
  | shape s =>
    refine ⟨(View.shape s).isInterface, ?_, ?_⟩
    · rw [TypeGraph.isInterface, hp, ← View.isInterface_image p a]
      rfl
    · rw [TypeGraph.isInterface, hq, ← View.isInterface_image q b]
      rfl
  | named n =>
    obtain ⟨u, a, b, hpu, hqu⟩ := ht.view n.underlying
    refine ⟨u.isInterface, ?_, ?_⟩
    · rw [TypeGraph.isInterface, hp, ← View.isInterface_image p a]
      simp only [View.image, hpu, bind, Except.bind, pure, Except.pure]
    · rw [TypeGraph.isInterface, hq, ← View.isInterface_image q b]
      simp only [View.image, hqu, bind, Except.bind, pure, Except.pure]

theorem follows_twins (ht : Twins g h p q) (c : γ) :
    ∃ b, Walk.follows g (p c) = .ok b ∧ Walk.follows h (q c) = .ok b := by
  obtain ⟨v, a, b, hp, hq⟩ := ht.view c
  obtain ⟨b, hpb, hqb⟩ := isInterface_twins ht c
  refine ⟨if v.isPointer then false else !b, ?_, ?_⟩
  · simp only [Walk.follows, hp, hpb, bind, Except.bind, View.isPointer_image]
    split <;> rfl
  · simp only [Walk.follows, hq, hqb, bind, Except.bind, View.isPointer_image]
    split <;> rfl

theorem subtasks_twins (ht : Twins g h p q) (v : View γ) (a : TypeArgs α) (b : TypeArgs β) :
    ∃ tasks : List (Task γ),
    Walk.subtasks g (v.image p a) = .ok (tasks.map (·.map p)) ∧
      Walk.subtasks h (v.image q b) = .ok (tasks.map (·.map q)) := by
  rcases v with (_ | _ | _ | _ | _ | _ | fs | _ | e) | n
  case shape.struct =>
    refine ⟨(fs.filter (·.embedded)).map fun f => .enter f.type, ?_, ?_⟩ <;>
      simp [Walk.subtasks, View.image, Shape.mapChildren, List.filter_map, Function.comp_def,
        Task.map]
  case shape.pointer =>
    obtain ⟨b, hp, hq⟩ := follows_twins ht e
    refine ⟨if b then [.enter e] else [], ?_, ?_⟩
    · simp only [Walk.subtasks, View.image, Shape.mapChildren, hp, bind, Except.bind]
      cases b <;> rfl
    · simp only [Walk.subtasks, View.image, Shape.mapChildren, hq, bind, Except.bind]
      cases b <;> rfl
  case named => exact ⟨[.enter n.underlying, .declare n.methods], rfl, rfl⟩
  all_goals exact ⟨[], rfl, rfl⟩

theorem step_twins (ht : Twins g h p q) (limit base : Nat) (w : Walk γ) :
    Lockstep (Option.map (Walk.map p)) (Option.map (Walk.map q))
      ((w.map p).step g limit base) ((w.map q).step h limit base) := by
  obtain ⟨tasks, path, fields, candidates⟩ := w
  cases tasks with
  | nil => exact .ok none
  | cons task rest =>
    cases task with
    | leave =>
      simp only [Walk.step, Walk.map, List.map_cons, Task.map_leave, ← List.map_tail]
      exact .ok (some (⟨rest, path.tail, fields, candidates⟩ : Walk γ))
    | declare ms =>
      have hstep : ∀ {δ : Type} (k : TypeGraph δ) (f : γ → δ),
          Walk.step k limit base (Walk.map f ⟨.declare ms :: rest, path, fields, candidates⟩) =
            .ok (some (Walk.map f (Walk.record base ms ⟨rest, path, fields, candidates⟩))) := by
        intro δ k f
        rw [← Walk.record_map]
        rfl
      rw [hstep, hstep]
      exact .ok (some (Walk.record base ms ⟨rest, path, fields, candidates⟩))
    | enter c =>
      obtain ⟨v, a, b, hp, hq⟩ := ht.view c
      obtain ⟨tasks, htp, htq⟩ := subtasks_twins ht v a b
      have hvisit := visits_twins ht path c
      have henter := enter_twins (g := g) (h := h) (p := p) (q := q) limit path c v a b
      simp only [Walk.step, Walk.map, List.map_cons, Task.map_enter, hp, hq, htp, htq, hvisit]
      split
      · exact .ok (some (⟨rest, path, fields, candidates⟩ : Walk γ))
      · generalize Path.enter g limit (path.map (·.map p)) (p c) (v.image p a) = x at henter ⊢
        generalize Path.enter h limit (path.map (·.map q)) (q c) (v.image q b) = y at henter ⊢
        cases henter with
        | limit n s t => exact .limit n s t
        | ok after =>
          have hcollect : ∀ {δ : Type} (f : γ → δ) (a : TypeArgs δ), Walk.collect base (v.image f a)
              ⟨tasks.map (·.map f) ++ .leave :: rest.map (·.map f), after.map (·.map f), fields,
                candidates.map (·.map f)⟩ =
              Walk.map f (Walk.collect base v ⟨tasks ++ .leave :: rest, after, fields, candidates⟩) := by
            intro δ f a
            rw [← Walk.collect_image f a, Walk.map, List.map_append, List.map_cons, Task.map_leave]
          simp only [hcollect]
          exact .ok (some (Walk.collect base v ⟨tasks ++ .leave :: rest, after, fields, candidates⟩))

/-- Whole walks in twin graphs find the same, or both fail at the limit. -/
theorem run_twins (ht : Twins g h p q) (limit base : Nat) (w : Walk γ) :
    Lockstep (Found.map p) (Found.map q)
      ((w.map p).run g limit base) ((w.map q).run h limit base) := by
  induction hr : (w.map p).ranks limit using WellFounded.induction
    (WellFoundedRelation.wf (α := Ranks)) generalizing w with
  | _ ranks ih =>
    subst hr
    rw [Walk.run_eq, Walk.run_eq]
    rcases (step_twins ht limit base w).cases_eq with ⟨n, s, t, hp, hq⟩ | ⟨_ | next, hp, hq⟩
    · rw [hp, hq]
      exact .limit n s t
    · rw [hp, hq]
      have hfound : ∀ {δ : Type} (f : γ → δ), (w.map f).candidates.toList =
          w.candidates.toList.map (·.map f) := fun f => Array.toList_map
      simp only [Option.map_none, bind, Except.bind, hfound]
      exact .ok (⟨w.fields.toList, w.candidates.toList⟩ : Found γ)
    · have hrank := Walk.ranks_step hp
      rw [hp, hq]
      exact ih _ hrank next rfl

theorem ownDepth_twins (ht : Twins g h p q) (c : γ) :
    ∃ n, ownDepth g (p c) = .ok n ∧ ownDepth h (q c) = .ok n := by
  obtain ⟨v, a, b, hp, hq⟩ := ht.view c
  rcases v with (_ | _ | _ | _ | _ | _ | _ | _ | e) | n
  case shape.pointer =>
    obtain ⟨u, a, b, hpu, hqu⟩ := ht.view e
    refine ⟨if u.isNamed then 1 else 0, ?_, ?_⟩
    · simp only [ownDepth, hp, View.image, Shape.mapChildren, hpu, bind, Except.bind]
      split <;> rfl
    · simp only [ownDepth, hq, View.image, Shape.mapChildren, hqu, bind, Except.bind]
      split <;> rfl
  case named =>
    refine ⟨1, ?_, ?_⟩
    · rw [ownDepth, hp]
      rfl
    · rw [ownDepth, hq]
      rfl
  all_goals
    refine ⟨0, ?_, ?_⟩
    · rw [ownDepth, hp]
      rfl
    · rw [ownDepth, hq]
      rfl

/-! ## Results -/

theorem shallowest?_map (f : Candidate α → Candidate β) (hf : ∀ c, (f c).depth = c.depth)
    (candidates : List (Candidate α)) :
    shallowest? (candidates.map f) = (shallowest? candidates).map f := by
  have hdepths : (candidates.map f).map (·.depth) = candidates.map (·.depth) := by
    rw [List.map_map]
    exact List.map_congr_left fun c _ => hf c
  unfold shallowest?
  rw [hdepths]
  cases (candidates.map (·.depth)).min? with
  | none => rfl
  | some depth =>
    have hfilter : (candidates.map f).filter (fun c => decide (c.depth = depth)) =
        (candidates.filter fun c => decide (c.depth = depth)).map f := by
      simp only [List.filter_map, Function.comp_def, hf]
    simp only [hfilter]
    cases candidates.filter fun c => decide (c.depth = depth) with
    | nil => rfl
    | cons c rest => cases rest <;> rfl

theorem Found.promoted?_map (f : α → β) (found : Found α) (name : String) :
    (found.map f).promoted? name = (found.promoted? name).map (·.map f) := by
  have hfilter : (found.map f).candidates.filter (fun c => decide (c.method.name = name)) =
      (found.candidates.filter fun c => decide (c.method.name = name)).map (·.map f) := by
    rw [map, List.filter_map]
    rfl
  unfold promoted?
  rw [hfilter, shallowest?_map (Candidate.map f) fun _ => rfl]
  by_cases hname : name ∈ found.fields
  · rw [if_pos hname, if_pos (show name ∈ (found.map f).fields from hname)]
    rfl
  · rw [if_neg hname, if_neg (show name ∉ (found.map f).fields from hname)]
    cases shallowest? (found.candidates.filter fun c => decide (c.method.name = name)) with
    | none => rfl
    | some c =>
      change (if c.method.pointerReceiver && !c.throughPointer then none
        else some (⟨c.method.map f, c.depth⟩ : Promoted β)) = _
      by_cases hc : (c.method.pointerReceiver && !c.throughPointer) = true
      · simp only [Option.map, if_pos hc]
      · simp only [Option.map, if_neg hc, Promoted.map]

theorem Found.promoted_map (f : α → β) (found : Found α) :
    (found.map f).promoted = found.promoted.map (·.map f) := by
  have hnames : (found.map f).candidates.map (·.method.name) =
      found.candidates.map (·.method.name) := by
    rw [map, List.map_map]
    rfl
  have hpromoted : (found.map f).promoted? = fun name => (found.promoted? name).map (·.map f) := by
    funext name
    exact promoted?_map f found name
  unfold promoted
  rw [hnames, hpromoted, List.map_filterMap]

/-- The promoted methods in twin graphs are images of the same methods. -/
theorem methods_twins (ht : Twins g h p q) (limit : Nat) (c : γ) :
    Lockstep (List.map (Promoted.map p)) (List.map (Promoted.map q))
      (methods g limit (p c)) (methods h limit (q c)) := by
  obtain ⟨base, hp, hq⟩ := ownDepth_twins ht c
  have hbase : Lockstep id id (ownDepth g (p c)) (ownDepth h (q c)) := by
    rw [hp, hq]
    exact .ok base
  have hrun : ∀ base, Lockstep (Found.map p) (Found.map q)
      (Walk.run g limit base ⟨[.enter (p c)], [], #[], #[]⟩)
      (Walk.run h limit base ⟨[.enter (q c)], [], #[], #[]⟩) := by
    intro base
    simpa [Walk.map] using run_twins ht limit base ⟨[.enter c], [], #[], #[]⟩
  refine hbase.bind fun base => (hrun base).bind fun found => ?_
  rw [Found.promoted_map, Found.promoted_map]
  exact .ok found.promoted

/-! ## Fields -/

theorem only?_map {δ ε : Type} (f : δ → ε) (ds : List δ) :
    only? (ds.map f) = (only? ds).map f := by
  rcases ds with _ | ⟨d, _ | _⟩ <;> rfl

theorem hits_map {δ ε : Type} (f : δ → ε) (hits : List (Option δ)) :
    (hits.map (Option.map f)).filterMap id = (hits.filterMap id).map f := by
  rw [List.filterMap_map, List.map_filterMap]
  rfl

theorem any_same_twins (ht : Twins g h p q) (path : List γ) (c : γ) :
    (path.map p).any (fun s => g.same s (p c)) = (path.map q).any fun s => h.same s (q c) := by
  simp only [List.any_map, Function.comp_def, ht.same]

theorem filter_field_map (f : α → β) (keep : String → Bool → Bool) (fs : List (Field α)) :
    (fs.map (Field.map f)).filter (fun x => keep x.name x.embedded) =
      (fs.filter fun x => keep x.name x.embedded).map (Field.map f) := by
  rw [List.filter_map]
  rfl

theorem search_struct {accepts : String → Bool} {limit budget : Nat} {path : List α}
    {embedded : Bool} {t : α} {fs : List (Field α)} (hnew : (path.any fun s => g.same s t) = false)
    (hv : g.view t = .ok (.shape (.struct fs))) :
    search g accepts limit (budget + 1) path embedded t =
      match fs.filter (fun f => accepts f.name) with
      | [] => do
        let hits ← (fs.filter (·.embedded)).mapM fun f =>
          search g accepts limit budget (t :: path) true f.type
        return only? (hits.filterMap id)
      | direct => return only? direct := by
  rw [search, hnew, hv]
  rfl

theorem search_pointer {accepts : String → Bool} {limit budget : Nat} {path : List α}
    {embedded : Bool} {t e : α} {v : View α} (hnew : (path.any fun s => g.same s t) = false)
    (hv : g.view t = .ok (.shape (.pointer e))) (he : g.view e = .ok v) :
    search g accepts limit (budget + 1) path embedded t =
      if !embedded || v.isPointer then .ok none
      else search g accepts limit budget (t :: path) embedded e := by
  rw [search, hnew, hv]
  cases embedded with
  | false => rfl
  | true =>
    simp only [bind, Except.bind, he]
    rfl

theorem search_struct_twins {accepts : String → Bool} {limit budget : Nat} {path : List γ}
    {embedded : Bool} {c : γ} {fs : List (Field γ)}
    (hnew : ((path.map p).any fun s => g.same s (p c)) = false)
    (hnew' : ((path.map q).any fun s => h.same s (q c)) = false)
    (hp : g.view (p c) = .ok (.shape (.struct (fs.map (Field.map p)))))
    (hq : h.view (q c) = .ok (.shape (.struct (fs.map (Field.map q)))))
    (hinner : ∀ x : Field γ, Lockstep (Option.map (Field.map p)) (Option.map (Field.map q))
      (search g accepts limit budget (p c :: path.map p) true (p x.type))
      (search h accepts limit budget (q c :: path.map q) true (q x.type))) :
    Lockstep (Option.map (Field.map p)) (Option.map (Field.map q))
      (search g accepts limit (budget + 1) (path.map p) embedded (p c))
      (search h accepts limit (budget + 1) (path.map q) embedded (q c)) := by
  have hdirect : ∀ {δ : Type} (f : γ → δ),
      (fs.map (Field.map f)).filter (fun x => accepts x.name) =
        (fs.filter fun x => accepts x.name).map (Field.map f) := by
    intro δ f
    exact filter_field_map f (fun name _ => accepts name) fs
  have hembedded : ∀ {δ : Type} (f : γ → δ), (fs.map (Field.map f)).filter (·.embedded) =
      (fs.filter (·.embedded)).map (Field.map f) := by
    intro δ f
    exact filter_field_map f (fun _ embedded => embedded) fs
  rw [search_struct hnew hp, search_struct hnew' hq, hdirect, hdirect, hembedded, hembedded]
  cases fs.filter fun x => accepts x.name with
  | nil =>
    have hhits : Lockstep (List.map (Option.map (Field.map p))) (List.map (Option.map (Field.map q)))
        (((fs.filter (·.embedded)).map (Field.map p)).mapM fun f =>
          search g accepts limit budget (p c :: path.map p) true f.type)
        (((fs.filter (·.embedded)).map (Field.map q)).mapM fun f =>
          search h accepts limit budget (q c :: path.map q) true f.type) :=
      Lockstep.mapM fun x _ => hinner x
    apply hhits.bind
    intro hits
    rw [hits_map, hits_map, only?_map, only?_map]
    exact .ok (only? (hits.filterMap id))
  | cons d rest =>
    have hone : ∀ {δ : Type} (f : γ → δ), only? (Field.map f d :: rest.map (Field.map f)) =
        (only? (d :: rest)).map (Field.map f) := by
      intro δ f
      exact only?_map (Field.map f) (d :: rest)
    rw [List.map_cons, List.map_cons]
    dsimp only
    rw [hone, hone]
    exact .ok (only? (d :: rest))

theorem search_twins (ht : Twins g h p q) (accepts : String → Bool) (limit budget : Nat)
    (path : List γ) (embedded : Bool) (c : γ) :
    Lockstep (Option.map (Field.map p)) (Option.map (Field.map q))
      (search g accepts limit budget (path.map p) embedded (p c))
      (search h accepts limit budget (path.map q) embedded (q c)) := by
  induction budget generalizing path embedded c with
  | zero =>
    obtain ⟨v, a, b, hp, hq⟩ := ht.view c
    unfold search
    rw [any_same_twins ht, hp, hq]
    split
    · exact .ok none
    · exact .limit ..
  | succ budget ih =>
    obtain ⟨v, a, b, hp, hq⟩ := ht.view c
    have hany := any_same_twins ht path c
    cases hvisit : (path.map p).any fun s => g.same s (p c) with
    | true =>
      unfold search
      rw [← hany, hvisit]
      exact .ok none
    | false =>
      rw [hvisit] at hany
      rcases v with (_ | _ | _ | _ | _ | _ | fs | _ | e) | n
      case shape.struct =>
        exact search_struct_twins hvisit hany.symm hp hq fun x => ih (c :: path) true x.type
      case shape.pointer =>
        obtain ⟨u, a, b, hpu, hqu⟩ := ht.view e
        rw [search_pointer hvisit hp hpu, search_pointer hany.symm hq hqu, View.isPointer_image,
          View.isPointer_image]
        split
        · exact .ok none
        · exact ih (c :: path) embedded e
      case named =>
        unfold search
        rw [hvisit, ← hany, hp, hq]
        exact ih (c :: path) embedded n.underlying
      all_goals
        unfold search
        rw [hvisit, ← hany, hp, hq]
        exact .ok none

/-- The fields found in twin graphs are images of the same field. -/
theorem field?_twins (ht : Twins g h p q) (limit : Nat) (accepts : String → Bool) (c : γ) :
    Lockstep (Option.map (Field.map p)) (Option.map (Field.map q))
      (field? g limit accepts (p c)) (field? h limit accepts (q c)) :=
  search_twins ht accepts limit limit [] false c

end Walks
end Promotion
end TypeIdentity
