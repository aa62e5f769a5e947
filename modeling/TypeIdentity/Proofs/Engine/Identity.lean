import TypeIdentity.Proofs.Accord
import TypeIdentity.Proofs.Engine.Collisions
import TypeIdentity.Proofs.Engine.Instantiation

/-! # Identity of types and of literals

Types that are the same show the same but for their declarations and nodes, so two memories that
answer alike are asked the same and told the same on the way to the two literals.  A literal tells
its type back unless two of its components print alike.
-/
namespace TypeIdentity
open TypeLiteral

/-! ## The views of types that are the same -/

/-- Arguments that are the same one by one, or one text. -/
inductive TypeArgs.Alike : TypeArgs HostType → TypeArgs HostType → Prop
  | resolved (zs : List (HostType × HostType)) (h : ∀ z ∈ zs, z.1.nominal = z.2.nominal) :
      Alike (.resolved (zs.map Prod.fst)) (.resolved (zs.map Prod.snd))
  | printed (text : String) : Alike (.printed text) (.printed text)

/-- Views that differ at most in what a literal does not show. -/
inductive View.Alike : View HostType → View HostType → Prop
  | shape (z : Shape (HostType × HostType)) (h : ∀ c ∈ z.children, c.1.nominal = c.2.nominal) :
      Alike (.shape (z.mapChildren Prod.fst)) (.shape (z.mapChildren Prod.snd))
  | named {n m : NamedView HostType} (hpath : n.path = m.path) (hname : n.name = m.name)
      (hargs : n.args.Alike m.args) : Alike (.named n) (.named m)

variable {store store' : Store} {t u : HostType} {v w : View HostType} {α : Type}

theorem View.alike_shape {f : α → HostType} {g : α → α} {s s' : Shape α}
    (h : s.mapChildren g = s'.mapChildren g)
    (hf : ∀ a b, g a = g b → (f a).nominal = (f b).nominal) :
    (View.shape (s.mapChildren f)).Alike (.shape (s'.mapChildren f)) := by
  obtain ⟨z, rfl, rfl, hz⟩ := Shape.exists_zip h
  have hall := Alike.shape (z.mapChildren fun c => (f c.1, f c.2)) fun c hc => by
    obtain ⟨p, hp, rfl⟩ := Shape.exists_of_mem_children hc
    exact hf p.1 p.2 (hz p hp)
  simpa only [Shape.mapChildren_mapChildren] using hall

theorem TypeArgs.alike_resolved {f : α → HostType} {g : α → α} {as bs : List α}
    (h : as.map g = bs.map g) (hf : ∀ a b, g a = g b → (f a).nominal = (f b).nominal) :
    (TypeArgs.resolved (as.map f)).Alike (.resolved (bs.map f)) := by
  obtain ⟨zs, rfl, rfl, hz⟩ := exists_zip_list h
  have hall := Alike.resolved (zs.map fun c => (f c.1, f c.2)) fun c hc => by
    obtain ⟨p, hp, rfl⟩ := List.mem_map.1 hc
    exact hf p.1 p.2 (hz p hp)
  simpa only [List.map_map, Function.comp_def] using hall

theorem View.alike_static {s s' : StaticType} (h : s.nominal = s'.nominal)
    (hv : store.view (.static s) = .ok v) (hw : store'.view (.static s') = .ok w) : v.Alike w := by
  cases s with
  | shape z =>
    cases s' with
    | shape z' =>
      obtain rfl := Except.ok.inj hv
      obtain rfl := Except.ok.inj hw
      rw [StaticType.nominal_shape, StaticType.nominal_shape] at h
      exact alike_shape (StaticType.shape.inj h) fun _ _ => congrArg HostType.static
    | named | param | tuple | union =>
      rw [StaticType.nominal_shape, StaticType.nominal] at h
      cases h
  | named d as =>
    cases s' with
    | named e bs =>
      rw [StaticType.nominal_named, StaticType.nominal_named] at h
      obtain ⟨hd, hargs⟩ := StaticType.named.inj h
      obtain ⟨-, hpath, hname, -⟩ := Decl.mk.inj hd
      cases hn : store.viewDecl d as with
      | error => simp [Store.view, Store.viewStatic, hn, bind, Except.bind] at hv
      | ok n =>
        cases hm : store'.viewDecl e bs with
        | error => simp [Store.view, Store.viewStatic, hm, bind, Except.bind] at hw
        | ok m =>
          obtain rfl := Except.ok.inj ((view_static_of hn).symm.trans hv)
          obtain rfl := Except.ok.inj ((view_static_of hm).symm.trans hw)
          obtain ⟨hnp, hnn, hna⟩ := viewDecl_ok hn
          obtain ⟨hmp, hmn, hma⟩ := viewDecl_ok hm
          refine .named (hnp.trans (hpath.trans hmp.symm)) (hnn.trans (hname.trans hmn.symm)) ?_
          simp only [hna, hma, TypeArgs.map]
          exact TypeArgs.alike_resolved hargs fun _ _ => congrArg HostType.static
    | shape | param | tuple | union =>
      rw [StaticType.nominal_named, StaticType.nominal] at h
      cases h
  | param | tuple | union => cases hv

theorem View.alike_runtime {r r' : RuntimeType} (h : r.nominal = r'.nominal)
    (hv : store.view (.runtime r) = .ok v) (hw : store'.view (.runtime r') = .ok w) :
    v.Alike w := by
  cases r with
  | shape z =>
    cases r' with
    | shape z' =>
      obtain rfl := Except.ok.inj hv
      obtain rfl := Except.ok.inj hw
      rw [RuntimeType.nominal, RuntimeType.nominal, Shape.attach_mapChildren,
        Shape.attach_mapChildren] at h
      exact alike_shape (RuntimeType.shape.inj h) fun _ _ => congrArg HostType.runtime
    | named => rw [RuntimeType.nominal, RuntimeType.nominal] at h; cases h
  | named a =>
    cases r' with
    | shape => rw [RuntimeType.nominal, RuntimeType.nominal] at h; cases h
    | named b =>
      rw [RuntimeType.nominal, RuntimeType.nominal] at h
      obtain ⟨-, hpath, hname⟩ := Node.mk.inj (RuntimeType.named.inj h)
      cases hn : store.viewNode a with
      | error => simp [Store.view, Store.viewRuntime, hn, bind, Except.bind] at hv
      | ok n =>
        cases hm : store'.viewNode b with
        | error => simp [Store.view, Store.viewRuntime, hm, bind, Except.bind] at hw
        | ok m =>
          obtain rfl := Except.ok.inj ((view_runtime_of hn).symm.trans hv)
          obtain rfl := Except.ok.inj ((view_runtime_of hm).symm.trans hw)
          obtain ⟨-, -, hns, hnp, -, -⟩ := viewNode_ok hn
          obtain ⟨-, -, hms, hmp, -, -⟩ := viewNode_ok hm
          rw [hname, hms] at hns
          obtain ⟨hnames, hargs⟩ := Prod.mk.inj (Except.ok.inj hns)
          refine .named (hnp.trans (hpath.trans hmp.symm)) hnames.symm ?_
          simp only [← hargs]
          cases m.args with
          | resolved as => exact TypeArgs.alike_resolved rfl fun _ _ => congrArg HostType.runtime
          | printed text => exact .printed text

/-- Types that are the same show the same, as far as literals show it. -/
theorem View.alike_of_same (h : t.nominal = u.nominal) (hv : store.view t = .ok v)
    (hw : store'.view u = .ok w) : v.Alike w := by
  cases t with
  | static s =>
    cases u with
    | static s' => exact alike_static (HostType.static.inj h) hv hw
    | runtime => cases h
  | runtime r =>
    cases u with
    | static => cases h
    | runtime r' => exact alike_runtime (HostType.runtime.inj h) hv hw

namespace Engine.Memory

/-! ## Memories that answer alike -/

/-- Memories that know the same texts and the same types. -/
structure Alike (memory memory' : Memory) : Prop where
  tables : memory.tables = memory'.tables
  identities : ∀ t : HostType, memory.identities[t]? = memory'.identities[t]?

theorem accord_count (f : Counters → Counters) : Accord Alike (count f) (count f) :=
  .modify fun _ _ h => ⟨h.tables, h.identities⟩

theorem accord_parse (id : String) : Accord Alike (parse id) (parse id) := by
  refine (accord_count _).bind fun _ => .get fun m m' h => ?_
  simp only [h.tables]
  exact (Accord.modify fun _ _ h => ⟨rfl, h.identities⟩).bind fun _ => .lift _

theorem accord_parseArgs (text : String) : Accord Alike (parseArgs text) (parseArgs text) := by
  unfold parseArgs
  split
  · exact .pure []
  · exact (Accord.lift _).bind fun parts => .mapM fun part _ => accord_parse _

theorem accord_share (lit : TypeLiteral) : Accord Alike (share lit) (share lit) := by
  refine .get fun m m' h => ?_
  simp only [h.tables]
  exact (Accord.modify fun _ _ h => ⟨by rw [h.tables], h.identities⟩).bind fun _ => .pure _

theorem identities_congr (memory : Memory) (h : t.nominal = u.nominal) :
    memory.identities[t]? = memory.identities[u]? :=
  Std.HashMap.getElem?_congr (HostType.same_iff.2 h)

/-- One literal is remembered for both types, so what is known of any type stays alike. -/
theorem accord_remember (h : t.nominal = u.nominal) (lit : TypeLiteral) :
    Accord Alike (remember t lit) (remember u lit) := by
  intro m m' hm a b after after' hrun hrun'
  rw [remember_eq] at hrun hrun'
  obtain ⟨ha, rfl⟩ := Prod.mk.inj hrun
  obtain ⟨hb, rfl⟩ := Prod.mk.inj hrun'
  have hknown : m.identities[t]? = m'.identities[u]? :=
    (identities_congr m h).trans (hm.identities u)
  refine ⟨?_, hm.tables, fun k => ?_⟩
  · rw [hknown] at ha
    exact Except.ok.inj (ha.symm.trans hb)
  · have hkey : (t == k) = (u == k) := BEq.congr_left (HostType.same_iff.2 h)
    have hmem : t ∈ m.identities ↔ u ∈ m'.identities := by
      rw [← Std.HashMap.isSome_getElem?_iff_mem, ← Std.HashMap.isSome_getElem?_iff_mem, hknown]
    simp only [Std.HashMap.getElem?_insertIfNew, hkey, hmem, hm.identities k]

theorem accord_retrieve {build build' : EngineM TypeLiteral} (h : t.nominal = u.nominal)
    (hb : Accord Alike build build') : Accord Alike (retrieve t build) (retrieve u build') := by
  refine .get fun m m' hm => ?_
  have hknown : m.identity? t = m'.identity? u := by
    rw [identity?_eq, identity?_eq, identities_congr m h, hm.identities u]
  rw [hknown]
  cases m'.identity? u with
  | some lit => exact (accord_count _).bind fun _ => .pure lit
  | none =>
    refine (accord_count _).bind fun _ => hb.bind fun lit => ?_
    exact (accord_share lit).bind fun lit => accord_remember h lit

/-- Types that are the same are built in accord, if so are their components. -/
theorem accord_build (h : t.nominal = u.nominal)
    (ih : ∀ c c', sizeOf c < sizeOf t → c.nominal = c'.nominal →
      Accord Alike (literalFor store c) (literalFor store' c')) :
    Accord Alike (build store t) (build store' u) := by
  unfold build
  cases hv : store.view t with
  | error e => exact .throw_left e _
  | ok v =>
    cases hw : store'.view u with
    | error e => exact .throw_right e _
    | ok w =>
      cases View.alike_of_same h hv hw with
      | shape z hz =>
        simp only [Shape.traverse_mapChildren]
        refine .map _ (.traverse fun c hc => ih c.1 c.2 ?_ (hz c hc))
        exact Store.sizeOf_lt_of_view_shape hv (Shape.mem_children_map _ hc)
      | @named n m hpath hname hargs =>
        simp only [hpath, hname]
        refine .map _ ?_
        generalize ha : n.args = as at hargs
        generalize m.args = bs at hargs
        cases hargs with
        | printed text => exact accord_parseArgs text
        | resolved zs hz =>
          simp only [List.mapM_map]
          refine .mapM fun c hc => ih c.1 c.2 ?_ (hz c hc)
          exact Store.sizeOf_lt_of_view_args hv ha (List.mem_map_of_mem hc)

/-- Finding literals respects identity, in any two stores. -/
theorem accord_literalFor (store store' : Store) (t u : HostType) (h : t.nominal = u.nominal) :
    Accord Alike (literalFor store t) (literalFor store' u) := by
  rw [literalFor_eq, literalFor_eq]
  refine accord_retrieve h (accord_build h fun c c' hlt hc => ?_)
  exact accord_literalFor store store' c c' hc
termination_by sizeOf t

theorem alike_fresh (config config' : Config) : Alike { config } { config := config' } :=
  ⟨rfl, fun _ => rfl⟩

/-- The literal of a static type tells the type back, if no two of its components print alike. -/
theorem literal_of_literalFor {s : StaticType} (hw : s.literal.WellFormed)
    (hd : s.literal.Distinct) {config : Config} {l : TypeLiteral}
    (h : (literalFor store (.static s) { config }).1 = .ok l) : s.nominal = l.nominalStatic :=
  (fits_of_literalFor ⟨fun _ => trivial, fun _ _ _ => trivial⟩ (Q := fun _ => True)
    (everyDecl_true s) hw hd h).1

/-- Identity of types is identity of literals.  Types of either representation that are the same
have one literal, each found by a fresh engine; static types with one literal are the same, if in
the literal of neither two different components print alike. -/
theorem same_iff_literals (store store' : Store) (config config' : Config) :
    (∀ t u l l', (literalFor store t { config }).1 = .ok l →
      (literalFor store' u { config := config' }).1 = .ok l' → t.same u = true → l = l') ∧
    (∀ s s' l l', s.literal.WellFormed → s'.literal.WellFormed →
      s.literal.Distinct → s'.literal.Distinct →
      (literalFor store (.static s) { config }).1 = .ok l →
      (literalFor store' (.static s') { config := config' }).1 = .ok l' →
      (s.same s' = true ↔ l = l')) := by
  have hforward : ∀ t u l l', (literalFor store t { config }).1 = .ok l →
      (literalFor store' u { config := config' }).1 = .ok l' → t.same u = true → l = l' := by
    intro t u l l' hl hl' hs
    exact (accord_literalFor store store' t u (HostType.same_iff.1 hs) _ _
      (alike_fresh config config') l l' _ _ (Prod.ext hl rfl) (Prod.ext hl' rfl)).1
  refine ⟨hforward, fun s s' l l' hw hw' hd hd' hl hl' => ⟨fun hs => ?_, ?_⟩⟩
  · exact hforward _ _ l l' hl hl' ((HostType.same_static s s').trans hs)
  · rintro rfl
    rw [StaticType.same_iff, literal_of_literalFor hw hd hl, literal_of_literalFor hw' hd' hl']

/-- Two nodes of one printed name with different bodies. -/
def twinStore : Store where
  decls := boxStore.decls
  nodes := #[⟨some (.struct []), []⟩, ⟨some (.basic .int), []⟩]

def twinBox : Node := ⟨1, "lib", "Box[int]"⟩

theorem literalFor_intBox {n : Node} (hpath : n.path = "lib") (hname : n.name = "Box[int]")
    {body : Shape RuntimeType} (hb : (twinStore.node n).body = some body) :
    (literalFor twinStore (.runtime (.named n)) {}).1 = .ok intBoxLiteral := by
  have hsplit : Store.splitPrintedName n.name = .ok ("Box", .printed "int") := by
    rw [hname]
    rfl
  have htext : ",".intercalate ([shape (.basic .int)].map canonical) = "int" := by decide +kernel
  have hd : Denotes twinStore (.runtime (.named n)) (named n.path "Box" [shape (.basic .int)]) :=
    .printed (view_runtime_of (viewNode_of hb hsplit)) (List.cons_ne_nil _ _) (by rw [htext]; rfl)
  have hp : intBoxLiteral.Portable := by
    refine ⟨?_, ?_, by decide +kernel⟩
    · unfold WellFormed WellFormedAs; decide +kernel
    · unfold ClearParams; decide +kernel
  rw [hpath] at hd
  obtain ⟨after, he, -⟩ := returns_literalFor hd hp {} (sound_fresh twinStore {})
  exact congrArg Prod.fst he

theorem same_iff_literals_box :
    (∃ l l', (literalFor twinStore (.runtime (.named intBox)) {}).1 = .ok l ∧
      (literalFor twinStore (.runtime (.named twinBox)) {}).1 = .ok l' ∧ l = l') ∧
    ∃ l l', (literalFor boxStore (.static (staticBox (.shape (.basic .int)))) {}).1 = .ok l ∧
      (literalFor boxStore (.static (staticBox (.shape (.basic .string)))) {}).1 = .ok l' ∧
      l ≠ l' := by
  constructor
  · have hfirst := literalFor_intBox (n := intBox) rfl rfl rfl
    have hsecond := literalFor_intBox (n := twinBox) rfl rfl rfl
    exact ⟨_, _, hfirst, hsecond, (same_iff_literals twinStore twinStore {} {}).1 _ _ _ _ hfirst
      hsecond (by decide +kernel)⟩
  · have hbox (b : BasicType) : Viewable boxStore (staticBox (.shape (.basic b))) := by
      refine .named (viewDecl_box _) fun c hc => ?_
      rw [List.mem_singleton.1 hc]
      exact viewable_basic b
    obtain ⟨l, hl⟩ := (findable_of_viewable (hbox .int)).literal {}
    obtain ⟨l', hl'⟩ := (findable_of_viewable (hbox .string)).literal {}
    have hiff := (same_iff_literals boxStore boxStore {} {}).2 _ _ l l'
      (by unfold WellFormed WellFormedAs; decide +kernel)
      (by unfold WellFormed WellFormedAs; decide +kernel) (by decide +kernel) (by decide +kernel)
      hl hl'
    exact ⟨l, l', hl, hl', fun he => absurd (hiff.2 he) (by decide +kernel)⟩

def spreadsType : StaticType := .shape (.map spreadType spreadType)

/-- Two components that print alike are given one literal, and with it the whole type has the
literal of another one. -/
theorem literals_of_spreads : collisionType.literal.WellFormed ∧ spreadsType.literal.WellFormed ∧
    collisionType.same spreadsType = false ∧
    ∃ l, (literalFor parentStore (.static collisionType) {}).1 = .ok l ∧
      (literalFor parentStore (.static spreadsType) {}).1 = .ok l := by
  have hview : Viewable parentStore spreadsType := by
    refine .shape fun c hc => ?_
    rcases List.mem_pair.1 hc with rfl | rfl <;> exact viewable_spread
  have hp : spreadsType.literal.Portable := by
    refine ⟨?_, ?_, by decide +kernel⟩
    · unfold WellFormed WellFormedAs; decide +kernel
    · unfold ClearParams; decide +kernel
  have hlit : spreadsType.literal = shape (.map spreadType.literal spreadType.literal) := by
    decide +kernel
  obtain ⟨after, he, -⟩ := returns_literalFor hview.denotes hp {} (sound_fresh parentStore {})
  refine ⟨?_, hp.wellFormed, by decide +kernel, _, literalFor_collision, ?_⟩
  · unfold WellFormed WellFormedAs
    decide +kernel
  · rw [← hlit]
    exact congrArg Prod.fst he

end Engine.Memory
end TypeIdentity
