import TypeIdentity.Proofs.Promotion.MethodSets
import TypeIdentity.Proofs.Promotion.Searches
import TypeIdentity.Proofs.Promotion.Twins

/-! # Names of promoted methods

A search for a field follows the paths on which methods are looked for, so it finds no field with
the name of a promoted method.  Only at pointers to interfaces does it go farther, and there it may
run into the limit, but an interface has no fields.
-/
namespace TypeIdentity.Promotion
variable {α : Type} {g : TypeGraph α} {accepts : String → Bool} {limit budget : Nat} {query : α}

/-- An embedded pointer to an interface on a path from the query. -/
def EmbedsInterfacePointer (g : TypeGraph α) (query e : α) : Prop :=
  ∃ choices s path, Trail g query choices (s :: path) ∧
    g.view s.type = .ok (.shape (.pointer e)) ∧ g.isInterface e = .ok true ∧
      ∃ r ∈ path, ∃ fs, g.view r.type = .ok (.shape (.struct fs))

/-- The limit is exceeded at an interface or at the named type that stands for it. -/
def ExceedsAt (g : TypeGraph α) (limit : Nat) (e : α) (error : Error) : Prop :=
  ∃ u, (u = e ∨ ∃ n, g.view e = .ok (.named n) ∧ u = n.underlying) ∧
    error = .traversalLimit limit (g.describe u)

theorem interface_of_isInterface {e : α} (hi : g.isInterface e = .ok true) :
    (∃ ms, g.view e = .ok (.shape (.interface ms))) ∨
      ∃ n ms, g.view e = .ok (.named n) ∧ g.view n.underlying = .ok (.shape (.interface ms)) := by
  have hshape {v : View α} (h : v.isInterface = true) : ∃ ms, v = .shape (.interface ms) := by
    rcases v with (_ | _ | _ | _ | _ | _ | _ | ms | _) | _
    case shape.interface => exact ⟨ms, rfl⟩
    all_goals cases h
  unfold TypeGraph.isInterface at hi
  cases hv : g.view e with
  | error x => simp [hv, bind, Except.bind] at hi
  | ok v =>
    cases v with
    | shape s =>
      simp only [hv, bind, Except.bind] at hi
      obtain ⟨ms, hms⟩ := hshape (Except.ok.inj hi)
      exact .inl ⟨ms, by rw [hms]⟩
    | named n =>
      cases hu : g.view n.underlying with
      | error x => simp [hv, hu, bind, Except.bind] at hi
      | ok w =>
        simp only [hv, hu, bind, Except.bind] at hi
        obtain ⟨ms, rfl⟩ := hshape (Except.ok.inj hi)
        exact .inr ⟨n, ms, rfl, hu⟩

/-- Nothing is found in an interface. -/
theorem search_interface {path : List α} {embedded : Bool} {e : α}
    (hi : g.isInterface e = .ok true) : search g accepts limit budget path embedded e = .ok none ∨
      ∃ error, search g accepts limit budget path embedded e = .error error ∧
        ExceedsAt g limit e error := by
  have hleaf {budget : Nat} {path : List α} {u : α} {ms : List (Method α)}
      (hv : g.view u = .ok (.shape (.interface ms))) :
      search g accepts limit budget path embedded u = .ok none ∨
        search g accepts limit budget path embedded u =
          .error (.traversalLimit limit (g.describe u)) := by
    cases hn : path.any fun s => g.same s u with
    | true => exact .inl (search_visited hn)
    | false =>
      cases budget with
      | zero => exact .inr (search_limited hn hv)
      | succ budget => exact .inl (search_inward hn hv rfl)
  rcases interface_of_isInterface hi with ⟨ms, hv⟩ | ⟨n, ms, hv, hu⟩
  · exact (hleaf hv).imp_right fun h => ⟨_, h, e, .inl rfl, rfl⟩
  · cases hn : path.any fun s => g.same s e with
    | true => exact .inl (search_visited hn)
    | false =>
      cases budget with
      | zero => exact .inr ⟨_, search_limited hn hv, e, .inl rfl, rfl⟩
      | succ budget =>
        rw [search_named hn hv]
        exact (hleaf hu).imp_right fun h => ⟨_, h, n.underlying, .inr ⟨n, hv, rfl⟩, rfl⟩

theorem inward_eq_hops {v : View α} (hp : v.isPointer = false) (embedded : Bool) :
    inward g embedded v = hops g v := by
  rcases v with (_ | _ | _ | _ | _ | _ | _ | _ | _) | _
  case shape.pointer => cases hp
  all_goals rfl

/-- Branches in none of which something is found, unless one of them fails. -/
theorem mapM_none_or {β γ : Type} {F : β → Except Error (Option γ)} {E : Error → Prop} {l : List β}
    (h : ∀ b ∈ l, F b = .ok none ∨ ∃ error, F b = .error error ∧ E error) :
    (l.mapM F >>= fun hits => .ok (only? (hits.filterMap id))) = .ok none ∨
      ∃ error, (l.mapM F >>= fun hits => .ok (only? (hits.filterMap id))) = .error error ∧
        E error := by
  induction l with
  | nil => exact .inl rfl
  | cons b l ih =>
    rw [List.mapM_cons]
    rcases h b (List.mem_cons_self ..) with hb | ⟨error, hb, he⟩
    · have hrest := ih fun c hc => h c (List.mem_cons_of_mem _ hc)
      rw [hb]
      cases hl : l.mapM F with
      | error error =>
        rw [hl] at hrest
        exact hrest
      | ok hits =>
        rw [hl] at hrest
        exact hrest
    · exact .inr ⟨error, by rw [hb]; rfl, he⟩

/-- Nothing is found, or the search fails behind an embedded pointer to an interface. -/
def FindsNothing (g : TypeGraph α) (limit : Nat) (query : α)
    (result : Except Error (Option (Field α))) : Prop :=
  result = .ok none ∨ ∃ error, result = .error error ∧
    ∃ e, EmbedsInterfacePointer g query e ∧ ExceedsAt g limit e error

section Explored
variable {base : Nat} {choices : List Nat} {path : Path α} {embedded : Bool} {t : α} {v : View α}
  {l : List (Nat × α)}

/-- A search goes on from a type as the exploration does, but for pointers to interfaces. -/
theorem findsNothing_of_hops (hn : ((path.map (·.type)).any fun s => g.same s t) = false)
    (hv : g.view t = .ok v) (hl : hops g v = .ok l)
    (hd : (v.fields.filter fun f => accepts f.name) = [])
    (ht : Trail g query choices (stepOf t v :: path))
    (hb : embedded = true → ∃ r ∈ path, ∃ fs, g.view r.type = .ok (.shape (.struct fs)))
    (hnext : ∀ x ∈ l, FindsNothing g limit query (search g accepts limit budget
      (t :: path.map (·.type)) (embedded || v.isStruct) x.2)) :
    FindsNothing g limit query
      (search g accepts limit (budget + 1) (path.map (·.type)) embedded t) := by
  cases hp : v.isPointer with
  | false =>
    rw [search_inward hn hv hd, inward_eq_hops hp, hl]
    exact mapM_none_or hnext
  | true =>
    obtain ⟨e, rfl⟩ : ∃ e, v = .shape (.pointer e) := by
      rcases v with (_ | _ | _ | _ | _ | _ | _ | _ | e) | _
      case shape.pointer => exact ⟨e, rfl⟩
      all_goals cases hp
    cases hf : Walk.follows g e with
    | error x => simp [hops, hf, bind, Except.bind] at hl
    | ok b =>
      cases he : g.view e with
      | error x => simp [Walk.follows, he, bind, Except.bind] at hf
      | ok w =>
        rw [search_pointer hn hv he]
        split
        · exact .inl rfl
        · next hne =>
          obtain ⟨rfl, hwp⟩ : embedded = true ∧ w.isPointer = false := by simpa using hne
          cases hi : g.isInterface e with
          | error x => simp [Walk.follows, he, hwp, hi, bind, Except.bind] at hf
          | ok c =>
            cases c with
            | true =>
              rcases search_interface hi with hnone | ⟨error, hs, hx⟩
              · exact .inl hnone
              · exact .inr ⟨error, hs, e, ⟨choices, _, path, ht, hv, hi, hb rfl⟩, hx⟩
            | false =>
              obtain rfl := (follows_iff hf).2 ⟨w, he, hwp, hi⟩
              simp only [hops, hf, bind, Except.bind, if_true, pure, Except.pure,
                Except.ok.injEq] at hl
              subst hl
              exact hnext (0, e) (List.mem_singleton_self _)

/-- Where an exploration meets no accepted field name, a search finds nothing. -/
theorem findsNothing_of_explore {found : Survey α}
    (h : explore g limit base budget choices path t = .ok found)
    (hnames : ∀ name ∈ found.fields, accepts name = false)
    (ht : ∀ v, g.view t = .ok v → Trail g query choices (stepOf t v :: path))
    (hb : embedded = true → ∃ r ∈ path, ∃ fs, g.view r.type = .ok (.shape (.struct fs))) :
    FindsNothing g limit query
      (search g accepts limit budget (path.map (·.type)) embedded t) := by
  induction budget using Nat.strongRecOn generalizing choices path embedded t found with
  | ind budget ih =>
    obtain ⟨hn, -⟩ | ⟨b, v, l, below, hn, hv, rfl, hl, hbelow, rfl⟩ := explore_ok h
    · exact .inl (search_visited ((List.any_map ..).trans hn))
    · have hd : (v.fields.filter fun f => accepts f.name) = [] := by
        rw [List.filter_eq_nil_iff]
        intro f hf
        have hname : f.name ∈ v.fieldNames := by
          rw [View.fieldNames_eq]
          exact List.mem_map_of_mem hf
        rw [hnames f.name (List.mem_append_left _ hname)]
        exact Bool.false_ne_true
      refine findsNothing_of_hops ((List.any_map ..).trans hn) hv hl hd (ht v hv) hb
        fun x hx => ?_
      obtain ⟨c, hc⟩ := exists_of_mapM hbelow hx
      refine ih b (Nat.lt_succ_self b) hc (fun name hm => ?_)
        (fun w hw => (ht v hv).hop ((mem_hops hv hl).1 hx) hw) fun hflag => ?_
      · refine hnames name (List.mem_append_right _ ?_)
        exact (mem_flatMap_of_mapM hbelow).2 ⟨x, hx, c, hc, hm⟩
      · cases embedded with
        | true =>
          obtain ⟨r, hr, hstruct⟩ := hb rfl
          exact ⟨r, List.mem_cons_of_mem _ hr, hstruct⟩
        | false =>
          obtain ⟨fs, rfl⟩ := View.struct_of_isStruct hflag
          exact ⟨_, List.mem_cons_self .., fs, hv⟩

end Explored

/-- No field has the name of a promoted method. -/
theorem findsNothing_of_promoted {promoted : List (Promoted α)} {p : Promoted α}
    (h : methods g limit query = .ok promoted) (hp : p ∈ promoted)
    (ha : ∀ name, accepts name = true → name = p.method.name) :
    FindsNothing g limit query (field? g limit accepts query) := by
  obtain ⟨base, found, -, hfound, rfl⟩ := methods_ok h
  obtain ⟨hfields, -⟩ := promoted?_eq_some.1 (mem_promoted_iff.1 hp)
  refine findsNothing_of_explore hfound (fun name hm => ?_) (fun v hv => .start hv)
    (fun hb => absurd hb Bool.false_ne_true)
  by_contra hacc
  exact hfields (ha name (Bool.of_not_eq_false hacc) ▸ hm)

end TypeIdentity.Promotion
