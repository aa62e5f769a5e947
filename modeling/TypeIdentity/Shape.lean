import TypeIdentity.BasicType
import TypeIdentity.Direction

/-! # One level of a type expression

A `Shape α` is an unnamed type whose immediate components are values of `α`.  Literals, static
types, runtime types and views all share it, so walking, rebuilding and comparing one level is
written once.  Main facts: shapes agree exactly when their images are equal, if their components do
so, and walking the components together with their membership proofs is walking the components.
-/
namespace TypeIdentity
universe u

/-- Parameter and result types; the last parameter of a variadic signature is a slice type. -/
structure Signature (α : Type) where
  ins : List α
  outs : List α
  variadic : Bool
  deriving DecidableEq, Hashable, Repr

/-- A struct field; an embedded field is named after the type it embeds. -/
structure Field (α : Type) where
  name : String
  type : α
  tag : String
  embedded : Bool
  deriving DecidableEq, Hashable, Repr

structure Method (α : Type) where
  name : String
  signature : Signature α
  deriving DecidableEq, Hashable, Repr

inductive Shape (α : Type)
  | basic (type : BasicType)
  | array (length : UInt64) (elem : α)
  | slice (elem : α)
  | map (key elem : α)
  | chan (dir : Direction) (elem : α)
  | func (signature : Signature α)
  | struct (fields : List (Field α))
  | interface (methods : List (Method α))
  | pointer (elem : α)
  deriving DecidableEq, Hashable, Repr

variable {α β γ : Type}

/-- Lists of one length whose members agree pairwise. -/
def agreeAll (r : α → β → Bool) : List α → List β → Bool
  | [], [] => true
  | a :: as, b :: bs => r a b && agreeAll r as bs
  | _, _ => false

theorem agreeAll_map_left (f : α → γ) (r : γ → β → Bool) (as : List α) (bs : List β) :
    agreeAll r (as.map f) bs = agreeAll (fun a => r (f a)) as bs := by
  induction as generalizing bs with
  | nil => cases bs <;> rfl
  | cons a as ih => cases bs <;> simp [agreeAll, ih]

theorem agreeAll_attach (r : α → β → Bool) (as : List α) (bs : List β) :
    agreeAll (fun a => r a.1) as.attach bs = agreeAll r as bs := by
  rw [← agreeAll_map_left Subtype.val r, List.attach_map_subtype_val]

/-- Lists agree when their images are equal, if that is so of their members. -/
theorem agreeAll_iff_map {r : α → β → Bool} {f : α → γ} {g : β → γ} {as : List α} {bs : List β}
    (h : ∀ a ∈ as, ∀ b, r a b = true ↔ f a = g b) :
    agreeAll r as bs = true ↔ as.map f = bs.map g := by
  induction as generalizing bs with
  | nil => cases bs <;> simp [agreeAll]
  | cons a as ih =>
    cases bs with
    | nil => simp [agreeAll]
    | cons b bs =>
      simp [agreeAll, h a (List.mem_cons_self ..), ih fun c hc => h c (List.mem_cons_of_mem _ hc)]

namespace Signature

/-- All component types, parameters first. -/
def types (s : Signature α) : List α := s.ins ++ s.outs

def map (f : α → β) (s : Signature α) : Signature β := ⟨s.ins.map f, s.outs.map f, s.variadic⟩

def agree (r : α → β → Bool) (s : Signature α) (t : Signature β) : Bool :=
  agreeAll r s.ins t.ins && agreeAll r s.outs t.outs && s.variadic == t.variadic

/-- The same, where `r` may use that it is asked about a component. -/
def agreeOn (s : Signature α) (r : (c : α) → c ∈ s.types → β → Bool) (t : Signature β) : Bool :=
  agreeAll (fun c => r c.1 (List.mem_append_left _ c.2)) s.ins.attach t.ins &&
    agreeAll (fun c => r c.1 (List.mem_append_right _ c.2)) s.outs.attach t.outs &&
    s.variadic == t.variadic

theorem agreeOn_eq (r : α → β → Bool) (s : Signature α) (t : Signature β) :
    s.agreeOn (fun c _ => r c) t = s.agree r t := by
  simp only [agreeOn, agree, agreeAll_attach]

/-- Runs `f` on the parameters and then on the results, stopping at the first failure. -/
def traverse {m : Type → Type u} [Monad m] (f : α → m β) (s : Signature α) : m (Signature β) := do
  return ⟨← s.ins.mapM f, ← s.outs.mapM f, s.variadic⟩

def attachWith (s : Signature α) (P : α → Prop) (h : ∀ c ∈ s.types, P c) :
    Signature {c // P c} where
  ins := s.ins.attachWith P fun c hc => h c (List.mem_append_left _ hc)
  outs := s.outs.attachWith P fun c hc => h c (List.mem_append_right _ hc)
  variadic := s.variadic

end Signature

namespace Shape

def children : Shape α → List α
  | basic _ => []
  | array _ e | slice e | chan _ e | pointer e => [e]
  | map k e => [k, e]
  | func s => s.types
  | struct fs => fs.map (·.type)
  | interface ms => ms.flatMap (·.signature.types)

def mapChildren (f : α → β) : Shape α → Shape β
  | basic b => basic b
  | array n e => array n (f e)
  | slice e => slice (f e)
  | map k e => map (f k) (f e)
  | chan d e => chan d (f e)
  | func s => func (s.map f)
  | struct fs => struct (fs.map fun g => ⟨g.name, f g.type, g.tag, g.embedded⟩)
  | interface ms => interface (ms.map fun m => ⟨m.name, m.signature.map f⟩)
  | pointer e => pointer (f e)

/-- Runs `f` on the components from left to right, stopping at the first failure. -/
def traverse {m : Type → Type u} [Monad m] (f : α → m β) : Shape α → m (Shape β)
  | basic b => pure (basic b)
  | array n e => return array n (← f e)
  | slice e => return slice (← f e)
  | map k e => return map (← f k) (← f e)
  | chan d e => return chan d (← f e)
  | func s => return func (← s.traverse f)
  | struct fs => return struct (← fs.mapM fun g => return ⟨g.name, ← f g.type, g.tag, g.embedded⟩)
  | interface ms => return interface (← ms.mapM fun n => return ⟨n.name, ← n.signature.traverse f⟩)
  | pointer e => return pointer (← f e)

/-- The same shape with a property of every component attached. -/
def attachWith (s : Shape α) (P : α → Prop) (h : ∀ c ∈ s.children, P c) : Shape {c // P c} :=
  match s, h with
  | basic b, _ => basic b
  | array n e, h => array n ⟨e, h e (by simp [children])⟩
  | slice e, h => slice ⟨e, h e (by simp [children])⟩
  | map k e, h => map ⟨k, h k (by simp [children])⟩ ⟨e, h e (by simp [children])⟩
  | chan d e, h => chan d ⟨e, h e (by simp [children])⟩
  | func s, h => func (s.attachWith P h)
  | struct fs, h => struct (fs.attach.map fun g =>
      ⟨g.1.name, ⟨g.1.type, h _ (List.mem_map.2 ⟨g.1, g.2, rfl⟩)⟩, g.1.tag, g.1.embedded⟩)
  | interface ms, h => interface (ms.attach.map fun m =>
      ⟨m.1.name, m.1.signature.attachWith P fun c hc => h c (List.mem_flatMap.2 ⟨m.1, m.2, hc⟩)⟩)
  | pointer e, h => pointer ⟨e, h e (by simp [children])⟩

/-- Every component comes with the proof that it is one. -/
def attach (s : Shape α) : Shape {c // c ∈ s.children} := s.attachWith (· ∈ s.children) fun _ => id

/-- Equal but for the components, and these agree pairwise. -/
def agree (r : α → β → Bool) : Shape α → Shape β → Bool
  | basic b, basic c => b == c
  | array n a, array m b => n == m && r a b
  | slice a, slice b => r a b
  | map k a, map l b => r k l && r a b
  | chan d a, chan e b => d == e && r a b
  | func s, func t => s.agree r t
  | struct fs, struct gs => agreeAll (fun f g =>
      f.name == g.name && f.tag == g.tag && f.embedded == g.embedded && r f.type g.type) fs gs
  | interface ms, interface ns => agreeAll (fun m n =>
      m.name == n.name && m.signature.agree r n.signature) ms ns
  | pointer a, pointer b => r a b
  | _, _ => false

/-- The same, where `r` may use that it is asked about a component. -/
def agreeOn (s : Shape α) (r : (c : α) → c ∈ s.children → β → Bool) (t : Shape β) : Bool :=
  match s, r, t with
  | basic b, _, basic c => b == c
  | array n a, r, array m b => n == m && r a (by simp [children]) b
  | slice a, r, slice b => r a (by simp [children]) b
  | map k a, r, map l b => r k (by simp [children]) l && r a (by simp [children]) b
  | chan d a, r, chan e b => d == e && r a (by simp [children]) b
  | func s, r, func t => s.agreeOn r t
  | struct fs, r, struct gs => agreeAll (fun f g => f.1.name == g.name && f.1.tag == g.tag &&
      f.1.embedded == g.embedded && r f.1.type (List.mem_map_of_mem f.2) g.type) fs.attach gs
  | interface ms, r, interface ns => agreeAll (fun m n => m.1.name == n.name &&
      m.1.signature.agreeOn (fun c hc => r c (List.mem_flatMap.2 ⟨m.1, m.2, hc⟩)) n.signature)
      ms.attach ns
  | pointer a, r, pointer b => r a (by simp [children]) b
  | _, _, _ => false

theorem agreeOn_eq (r : α → β → Bool) (s : Shape α) (t : Shape β) :
    s.agreeOn (fun c _ => r c) t = s.agree r t := by
  cases s <;> cases t <;> simp only [agreeOn, agree, Signature.agreeOn_eq]
  case func.func => exact Signature.agreeOn_eq ..
  case struct.struct =>
    exact agreeAll_attach (fun (f : Field α) (g : Field β) =>
      f.name == g.name && f.tag == g.tag && f.embedded == g.embedded && r f.type g.type) ..
  case interface.interface =>
    exact agreeAll_attach (fun (m : Method α) (n : Method β) =>
      m.name == n.name && m.signature.agree r n.signature) ..

theorem sizeOf_lt [SizeOf α] {s : Shape α} {c : α} (h : c ∈ s.children) : sizeOf c < sizeOf s := by
  rcases s with _ | _ | _ | _ | _ | ⟨i, o, v⟩ | fs | ms | _ <;> simp only [children] at h
  case basic => simp at h
  case map => simp at h; rcases h with rfl | rfl <;> simp +arith
  case func =>
    rcases List.mem_append.1 h with h | h <;> (have hl := List.sizeOf_lt_of_mem h; simp at *; omega)
  case struct =>
    obtain ⟨⟨n, t, g, e⟩, hg, rfl⟩ := List.mem_map.1 h
    have := List.sizeOf_lt_of_mem hg
    simp at this ⊢; omega
  case interface =>
    obtain ⟨⟨n, i, o, v⟩, hm, hc⟩ := List.mem_flatMap.1 h
    have := List.sizeOf_lt_of_mem hm
    rcases List.mem_append.1 hc with hc | hc <;>
      (have hl := List.sizeOf_lt_of_mem hc; simp at *; omega)
  all_goals simp at h; subst h; simp +arith

end Shape

namespace Signature

theorem attachWith_map {P : α → Prop} (s : Signature α) (h : ∀ c ∈ s.types, P c) :
    (s.attachWith P h).map Subtype.val = s := by
  simp [attachWith, map]

theorem traverse_map {m : Type → Type u} [Monad m] [LawfulMonad m] (f : α → β) (g : β → m γ)
    (s : Signature α) : (s.map f).traverse g = s.traverse fun c => g (f c) := by
  simp [traverse, map, List.mapM_map, Function.comp_def]

theorem map_congr {f g : α → β} {s : Signature α} (h : ∀ c ∈ s.types, f c = g c) :
    s.map f = s.map g := by
  simp only [map, Signature.mk.injEq, and_true]
  exact ⟨List.map_congr_left fun c hc => h c (List.mem_append_left _ hc),
    List.map_congr_left fun c hc => h c (List.mem_append_right _ hc)⟩

theorem agree_iff_map {r : α → β → Bool} {f : α → γ} {g : β → γ} {s : Signature α}
    {t : Signature β} (h : ∀ a ∈ s.types, ∀ b, r a b = true ↔ f a = g b) :
    s.agree r t = true ↔ s.map f = t.map g := by
  simp only [agree, map, Bool.and_eq_true, beq_iff_eq, Signature.mk.injEq, and_assoc,
    agreeAll_iff_map fun c hc => h c (List.mem_append_left _ hc),
    agreeAll_iff_map fun c hc => h c (List.mem_append_right _ hc)]

end Signature

namespace Shape

theorem attachWith_mapChildren {P : α → Prop} (s : Shape α) (h : ∀ c ∈ s.children, P c) :
    (s.attachWith P h).mapChildren Subtype.val = s := by
  cases s with
  | func s => exact congrArg func (s.attachWith_map h)
  | _ => simp [attachWith, mapChildren, Signature.attachWith_map]

theorem traverse_mapChildren {m : Type → Type u} [Monad m] [LawfulMonad m] (f : α → β) (g : β → m γ)
    (s : Shape α) : (s.mapChildren f).traverse g = s.traverse fun c => g (f c) := by
  cases s <;> simp [traverse, mapChildren, Signature.traverse_map, List.mapM_map, Function.comp_def]

/-- Walking the components with their membership proofs is walking the components. -/
theorem attach_traverse {m : Type → Type u} [Monad m] [LawfulMonad m] (f : α → m β) (s : Shape α) :
    s.attach.traverse (fun c => f c.1) = s.traverse f := by
  conv => rhs; rw [← s.attachWith_mapChildren fun _ => id]
  rw [traverse_mapChildren]; rfl

theorem mapChildren_mapChildren (f : α → β) (g : β → γ) (s : Shape α) :
    (s.mapChildren f).mapChildren g = s.mapChildren fun c => g (f c) := by
  cases s <;> simp [mapChildren, Signature.map]

theorem children_mapChildren (f : α → β) (s : Shape α) :
    (s.mapChildren f).children = s.children.map f := by
  cases s <;> simp [mapChildren, children, Signature.map, Signature.types, List.map_flatMap,
    List.flatMap_map]

theorem mapChildren_congr {f g : α → β} {s : Shape α} (h : ∀ c ∈ s.children, f c = g c) :
    s.mapChildren f = s.mapChildren g := by
  cases s with
  | basic => rfl
  | func s => exact congrArg func (Signature.map_congr h)
  | struct fs =>
    simp only [mapChildren, struct.injEq]
    exact List.map_congr_left fun x hx => by rw [h _ (List.mem_map_of_mem hx)]
  | interface ms =>
    simp only [mapChildren, interface.injEq]
    exact List.map_congr_left fun m hm => by
      rw [Signature.map_congr fun c hc => h c (List.mem_flatMap.2 ⟨m, hm, hc⟩)]
  | _ => simp_all [mapChildren, children]

@[simp] theorem mapChildren_id (s : Shape α) : s.mapChildren id = s := by
  cases s <;> simp [mapChildren, Signature.map]

theorem attach_mapChildren (f : α → β) (s : Shape α) :
    (s.attach.mapChildren fun c => f c.1) = s.mapChildren f := by
  conv => rhs; rw [← s.attachWith_mapChildren fun _ => id]
  rw [mapChildren_mapChildren]; rfl

/-- Shapes agree when their images are equal, if that is so of their components. -/
theorem agree_iff_map {r : α → β → Bool} {f : α → γ} {g : β → γ} {s : Shape α} {t : Shape β}
    (h : ∀ a ∈ s.children, ∀ b, r a b = true ↔ f a = g b) :
    s.agree r t = true ↔ s.mapChildren f = t.mapChildren g := by
  cases s <;> cases t <;> simp only [agree, mapChildren, reduceCtorEq, Bool.false_eq_true,
    Bool.and_eq_true, beq_iff_eq, Shape.basic.injEq, Shape.array.injEq, Shape.slice.injEq,
    Shape.map.injEq, Shape.chan.injEq, Shape.func.injEq, Shape.struct.injEq,
    Shape.interface.injEq, Shape.pointer.injEq]
  case func.func => exact Signature.agree_iff_map h
  case struct.struct fs gs =>
    refine agreeAll_iff_map fun a ha b => ?_
    simp only [Bool.and_eq_true, beq_iff_eq, h _ (List.mem_map_of_mem ha), Field.mk.injEq]
    exact ⟨fun ⟨⟨⟨hn, ht⟩, he⟩, hf⟩ => ⟨hn, hf, ht, he⟩,
      fun ⟨hn, hf, ht, he⟩ => ⟨⟨⟨hn, ht⟩, he⟩, hf⟩⟩
  case interface.interface ms ns =>
    refine agreeAll_iff_map fun m hm n => ?_
    simp [Signature.agree_iff_map fun c hc => h c (List.mem_flatMap.2 ⟨m, hm, hc⟩)]
  all_goals simp_all [children]

end Shape
end TypeIdentity
