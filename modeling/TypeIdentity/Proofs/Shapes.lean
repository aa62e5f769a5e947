import TypeIdentity.Proofs.Outcome
import TypeIdentity.Shape

/-! # Shapes of pairs

Shapes with equal images come from one shape of pairs, and what holds of the components of a shape
when it is walked holds of the shape.
-/
namespace TypeIdentity
variable {α β γ : Type}

theorem exists_zip_list {f : α → γ} {g : β → γ} {as : List α} {bs : List β}
    (h : as.map f = bs.map g) : ∃ zs : List (α × β),
      as = zs.map Prod.fst ∧ bs = zs.map Prod.snd ∧ ∀ z ∈ zs, f z.1 = g z.2 := by
  induction as generalizing bs with
  | nil =>
    obtain rfl : bs = [] := by simpa using h.symm
    exact ⟨[], rfl, rfl, by simp⟩
  | cons a as ih =>
    cases bs with
    | nil => cases h
    | cons b bs =>
      obtain ⟨hab, hrest⟩ := List.cons.inj h
      obtain ⟨zs, rfl, rfl, hz⟩ := ih hrest
      refine ⟨(a, b) :: zs, rfl, rfl, ?_⟩
      intro z hm
      rcases List.mem_cons.1 hm with rfl | hm
      · exact hab
      · exact hz z hm

theorem Signature.exists_zip {f : α → γ} {g : β → γ} {s : Signature α} {t : Signature β}
    (h : s.map f = t.map g) : ∃ z : Signature (α × β),
      s = z.map Prod.fst ∧ t = z.map Prod.snd ∧ ∀ c ∈ z.types, f c.1 = g c.2 := by
  obtain ⟨ins, outs, variadic⟩ := s
  obtain ⟨ins', outs', variadic'⟩ := t
  obtain ⟨hins, houts, rfl⟩ : _ ∧ _ ∧ variadic = variadic' := by
    simpa only [Signature.map, Signature.mk.injEq] using h
  obtain ⟨zi, rfl, rfl, hi⟩ := exists_zip_list hins
  obtain ⟨zo, rfl, rfl, ho⟩ := exists_zip_list houts
  refine ⟨⟨zi, zo, variadic⟩, rfl, rfl, ?_⟩
  intro c hc
  rcases List.mem_append.1 hc with hc | hc
  · exact hi c hc
  · exact ho c hc

theorem Method.exists_zip {f : α → γ} {g : β → γ} {ms : List (Method α)} {ns : List (Method β)}
    (h : (ms.map fun m => (⟨m.name, m.signature.map f⟩ : Method γ)) =
      ns.map fun n => ⟨n.name, n.signature.map g⟩) :
    ∃ zs : List (Method (α × β)),
      ms = (zs.map fun z => ⟨z.name, z.signature.map Prod.fst⟩) ∧
      ns = (zs.map fun z => ⟨z.name, z.signature.map Prod.snd⟩) ∧
      ∀ z ∈ zs, ∀ c ∈ z.signature.types, f c.1 = g c.2 := by
  induction ms generalizing ns with
  | nil =>
    obtain rfl : ns = [] := by simpa using h.symm
    exact ⟨[], rfl, rfl, by simp⟩
  | cons m ms ih =>
    cases ns with
    | nil => cases h
    | cons n ns =>
      obtain ⟨hm, hrest⟩ := List.cons.inj h
      obtain ⟨hname, hsig⟩ := Method.mk.inj hm
      obtain ⟨z, hz, hz', hc⟩ := Signature.exists_zip hsig
      obtain ⟨zs, rfl, rfl, hzs⟩ := ih hrest
      refine ⟨⟨m.name, z⟩ :: zs, ?_, ?_, fun y hy => ?_⟩
      · rw [List.map_cons, ← hz]
      · rw [List.map_cons, ← hz', hname]
      · rcases List.mem_cons.1 hy with rfl | hy
        · exact hc
        · exact hzs y hy

namespace Shape

theorem mem_children_map {s : Shape α} {c : α} (f : α → β) (h : c ∈ s.children) :
    f c ∈ (s.mapChildren f).children := by
  rw [children_mapChildren]
  exact List.mem_map_of_mem h

theorem exists_of_mem_children {f : α → β} {s : Shape α} {b : β}
    (h : b ∈ (s.mapChildren f).children) : ∃ c ∈ s.children, f c = b := by
  rw [children_mapChildren] at h
  exact List.mem_map.1 h

/-- Shapes with equal images come from one shape of pairs. -/
theorem exists_zip {f : α → γ} {g : β → γ} {s : Shape α} {t : Shape β}
    (h : s.mapChildren f = t.mapChildren g) : ∃ z : Shape (α × β),
      s = z.mapChildren Prod.fst ∧ t = z.mapChildren Prod.snd ∧
        ∀ c ∈ z.children, f c.1 = g c.2 := by
  cases s <;> cases t <;> simp only [mapChildren, reduceCtorEq] at h
  case basic.basic b c =>
    exact ⟨basic b, rfl, by simpa [mapChildren] using h.symm, by simp [children]⟩
  case array.array n a m b =>
    obtain ⟨rfl, hab⟩ := Shape.array.inj h
    exact ⟨array n (a, b), rfl, rfl, by simpa [children] using hab⟩
  case slice.slice a b => exact ⟨slice (a, b), rfl, rfl, by simpa [children] using h⟩
  case map.map k a l b => exact ⟨map (k, l) (a, b), rfl, rfl, by simpa [children] using h⟩
  case chan.chan d a e b =>
    obtain ⟨rfl, hab⟩ := Shape.chan.inj h
    exact ⟨chan d (a, b), rfl, rfl, by simpa [children] using hab⟩
  case pointer.pointer a b => exact ⟨pointer (a, b), rfl, rfl, by simpa [children] using h⟩
  case func.func s t =>
    obtain ⟨z, rfl, rfl, hz⟩ := Signature.exists_zip (Shape.func.inj h)
    exact ⟨func z, rfl, rfl, hz⟩
  case struct.struct fs gs =>
    obtain ⟨zs, rfl, rfl, hz⟩ := exists_zip_list (Shape.struct.inj h)
    refine ⟨struct (zs.map fun z => ⟨z.1.name, (z.1.type, z.2.type), z.1.tag, z.1.embedded⟩),
      ?_, ?_, ?_⟩
    · simp [mapChildren]
    · have hsame : ∀ z ∈ zs, (⟨z.1.name, z.2.type, z.1.tag, z.1.embedded⟩ : Field β) = z.2 := by
        intro z hm
        obtain ⟨hn, -, ht, he⟩ := Field.mk.inj (hz z hm)
        rw [hn, ht, he]
      simp only [mapChildren, List.map_map, struct.injEq]
      exact (List.map_congr_left hsame).symm
    · intro c hc
      simp only [children, List.map_map, List.mem_map] at hc
      obtain ⟨z, hm, rfl⟩ := hc
      exact (Field.mk.inj (hz z hm)).2.1
  case interface.interface ms ns =>
    obtain ⟨zs, rfl, rfl, hz⟩ := Method.exists_zip (Shape.interface.inj h)
    refine ⟨interface zs, rfl, rfl, ?_⟩
    intro c hc
    obtain ⟨z, hm, hc⟩ := List.mem_flatMap.1 hc
    exact hz z hm c hc

end Shape

/-! ## Walking -/

theorem attach_mapM {m : Type → Type} [Monad m] [LawfulMonad m] (f : α → m β) (as : List α) :
    as.attach.mapM (fun c => f c.1) = as.mapM f := by
  conv => rhs; rw [← List.attach_map_subtype_val as, List.mapM_map]
  rfl

section
variable {δ : Type} {m : Type → Type} [Monad m] [LawfulMonad m]

/-- Members that are walked like lists of their own are walked like these lists one after another. -/
theorem mapM_flatMap {f : α → m β} {g : γ → m δ} {p : γ → List α} {q : δ → List β} {cs : List γ}
    (h : ∀ c ∈ cs, q <$> g c = (p c).mapM f) :
    List.flatMap q <$> cs.mapM g = (cs.flatMap p).mapM f := by
  induction cs with
  | nil => simp
  | cons c cs ih =>
    rw [List.flatMap_cons, List.mapM_append, ← h c (List.mem_cons_self ..),
      ← ih fun d hd => h d (List.mem_cons_of_mem _ hd), List.mapM_cons]
    simp

theorem Signature.types_traverse (f : α → m β) (s : Signature α) :
    types <$> s.traverse f = s.types.mapM f := by
  rw [types, List.mapM_append, traverse]
  simp [types]

/-- The components of what a shape is made into are what its components are made into. -/
theorem Shape.children_traverse (f : α → m β) (s : Shape α) :
    children <$> s.traverse f = s.children.mapM f := by
  cases s with
  | basic b => simp [traverse, children]
  | array n e | slice e | chan d e | pointer e | map k e => simp [traverse, children]
  | func s =>
    rw [children, ← Signature.types_traverse]
    simp [traverse, children]
  | struct fs =>
    have hfield (g : Field α) : (fun h => [h.type]) <$> (do
        return (⟨g.name, ← f g.type, g.tag, g.embedded⟩ : Field β)) = [g.type].mapM f := by
      simp
    rw [children, List.map_eq_flatMap, ← mapM_flatMap fun g _ => hfield g]
    simp [traverse, children, List.map_eq_flatMap]
  | interface ms =>
    have hmethod (n : Method α) : (fun h => h.signature.types) <$> (do
        return (⟨n.name, ← n.signature.traverse f⟩ : Method β)) = n.signature.types.mapM f := by
      rw [← Signature.types_traverse]
      simp
    rw [children, ← mapM_flatMap fun n _ => hmethod n]
    simp [traverse, children]

end

namespace Outcome
variable {m : Type → Type} [Monad m] [LawfulMonad m] (o : Outcome m)

theorem map {x : m α} {a : α} (f : α → β) (h : o.returns x a) : o.returns (f <$> x) (f a) := by
  rw [map_eq_pure_bind]
  exact o.bind h (o.pure _)

theorem mapM {f : α → m β} {g : α → β} {as : List α} (h : ∀ a ∈ as, o.returns (f a) (g a)) :
    o.returns (as.mapM f) (as.map g) := by
  induction as with
  | nil => exact o.pure []
  | cons a as ih =>
    rw [List.mapM_cons]
    apply o.bind (h a (List.mem_cons_self ..))
    exact o.bind (ih fun b hb => h b (List.mem_cons_of_mem _ hb)) (o.pure _)

theorem traverse_signature {f : α → m β} {g : α → β} {s : Signature α}
    (h : ∀ c ∈ s.types, o.returns (f c) (g c)) : o.returns (s.traverse f) (s.map g) := by
  have hins : o.returns (s.ins.mapM f) (s.ins.map g) :=
    o.mapM fun c hc => h c (List.mem_append_left _ hc)
  have houts : o.returns (s.outs.mapM f) (s.outs.map g) :=
    o.mapM fun c hc => h c (List.mem_append_right _ hc)
  exact o.bind hins (o.bind houts (o.pure _))

theorem traverse {f : α → m β} {g : α → β} {s : Shape α}
    (h : ∀ c ∈ s.children, o.returns (f c) (g c)) : o.returns (s.traverse f) (s.mapChildren g) := by
  cases s with
  | basic b => exact o.pure _
  | array _ e | slice e | chan _ e | pointer e =>
    exact o.bind (h e (List.mem_singleton_self e)) (o.pure _)
  | map k e =>
    exact o.bind (h k (by simp [Shape.children])) (o.bind (h e (by simp [Shape.children])) (o.pure _))
  | func s => exact o.bind (o.traverse_signature h) (o.pure _)
  | struct fs =>
    refine o.bind (o.mapM fun f hf => ?_) (o.pure _)
    exact o.bind (h _ (List.mem_map_of_mem hf)) (o.pure _)
  | interface ms =>
    refine o.bind (o.mapM fun n hn => ?_) (o.pure _)
    exact o.bind (o.traverse_signature fun c hc => h c (List.mem_flatMap.2 ⟨n, hn, hc⟩)) (o.pure _)

end Outcome
end TypeIdentity
