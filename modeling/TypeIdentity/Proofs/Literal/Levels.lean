import TypeIdentity.Proofs.Literal.Bodies
import TypeIdentity.Proofs.Literal.Names
import TypeIdentity.Proofs.Shapes

/-! # Reading one level back

For each kind of type, reading the level of its text asks for the texts of its components and yields
the type made of what these texts are read as.
-/
namespace TypeIdentity.Literal
open Text Scan TypeLiteral Reading

variable {spell : String → String} {allowed : String → Prop}
  {R : List Char → TypeLiteral → Prop}

/-- A struct is read when the entries that its body is cut to are, however the body is padded. -/
theorem yields_struct_text {entries : List (List Char × Field TypeLiteral)} {pad inner : List Char}
    (hpad : ∀ c ∈ pad, isBlank c = true) (hi : Nested [] inner)
    (hsplit : splitParts .semicolon inner = .ok (entries.map Prod.fst))
    (hf : ∀ e ∈ entries, ∀ (n : Nat) (id : List Char) (h : e.1.length < n),
      Yields spell allowed R (readField id (⟨e.1, h⟩ : Below n)) e.2) :
    Yields spell allowed R (level ("struct".toList ++ pad ++ '\x7b' :: (inner ++ ['\x7d'])))
      (shape (.struct (entries.map Prod.snd))) := by
  obtain ⟨hle, hhead⟩ := Head.of_struct hpad rfl
  obtain ⟨hlt, hblock⟩ := insideBlock_eq hi
    ("struct".toList ++ pad ++ '\x7b' :: (inner ++ ['\x7d'])) "struct" hle
  obtain ⟨hp, hparts⟩ := parts_eq hsplit hlt
  rw [level, hhead]
  simp only [hblock, hparts, done_bind]
  exact (Yields.mapM (forall₂_parts hp fun e hm hl => hf e hm _ _ hl)).bind (Yields.done _)

theorem yields_interface_text {entries : List (List Char × Method TypeLiteral)}
    {pad inner : List Char} (hpad : ∀ c ∈ pad, isBlank c = true) (hi : Nested [] inner)
    (hsplit : splitParts .semicolon inner = .ok (entries.map Prod.fst))
    (hm : ∀ e ∈ entries, ∀ (n : Nat) (h : e.1.length < n),
      Yields spell allowed R (readMethod (⟨e.1, h⟩ : Below n)) e.2) :
    Yields spell allowed R (level ("interface".toList ++ pad ++ '\x7b' :: (inner ++ ['\x7d'])))
      (shape (.interface (entries.map Prod.snd))) := by
  obtain ⟨hle, hhead⟩ := Head.of_interface hpad rfl
  obtain ⟨hlt, hblock⟩ := insideBlock_eq hi
    ("interface".toList ++ pad ++ '\x7b' :: (inner ++ ['\x7d'])) "interface" hle
  obtain ⟨hp, hparts⟩ := parts_eq hsplit hlt
  rw [level, hhead]
  simp only [hblock, hparts, done_bind]
  exact (Yields.mapM (forall₂_parts hp fun e hmem hl => hm e hmem _ hl)).bind (Yields.done _)

theorem yields_struct {fs : List (Field (TypeLiteral × TypeLiteral))}
    (hf : ∀ f ∈ fs, FieldComponents spell f)
    (ht : ∀ f ∈ fs, Component spell R f.type.1 f.type.2) :
    Yields spell allowed R (level (write spell (shape (.struct (fs.map (retype Prod.fst))))))
      (shape (.struct (fs.map (retype Prod.snd)))) := by
  let entries := fs.map fun f => (writeField spell (retype Prod.fst f), retype Prod.snd f)
  have hpart : ∀ p ∈ entries.map Prod.fst, Trimmed p ∧ Nested [';'] p := by
    intro p hp
    obtain ⟨e, he, rfl⟩ := List.mem_map.1 hp
    obtain ⟨f, hm, rfl⟩ := List.mem_map.1 he
    exact field_part (hf f hm).name (ht f hm).standalone
  have hread : ∀ e ∈ entries, ∀ (n : Nat) (id : List Char) (h : e.1.length < n),
      Yields spell allowed R (readField id (⟨e.1, h⟩ : Below n)) e.2 := by
    intro e he n id h
    obtain ⟨f, hm, rfl⟩ := List.mem_map.1 he
    exact yields_field (hf f hm) (ht f hm).reads id h
  have hy : Yields spell allowed R _ _ := yields_struct_text isBlank_space
    (nested_body fun p hp => (hpart p hp).2) (splitParts_body hpart) hread
  have htexts : entries.map Prod.fst = (fs.map (retype Prod.fst)).map (writeField spell) := by
    simp [entries]
  have hfields : entries.map Prod.snd = fs.map (retype Prod.snd) := by simp [entries]
  rw [htexts, hfields] at hy
  rwa [write_struct]

theorem yields_interface {ms : List (Method (TypeLiteral × TypeLiteral))}
    (hm : ∀ m ∈ ms, isIdentifier m.name.toList = true)
    (hs : ∀ m ∈ ms, SignatureComponents spell R m.signature) :
    Yields spell allowed R (level (write spell (shape (.interface (ms.map (resign Prod.fst))))))
      (shape (.interface (ms.map (resign Prod.snd)))) := by
  let entries := ms.map fun m => (writeMethod spell (resign Prod.fst m), resign Prod.snd m)
  have hpart : ∀ p ∈ entries.map Prod.fst, Trimmed p ∧ Nested [';'] p := by
    intro p hp
    obtain ⟨e, he, rfl⟩ := List.mem_map.1 hp
    obtain ⟨m, hmem, rfl⟩ := List.mem_map.1 he
    refine method_part ⟨hm m hmem, (hs m hmem).wellFormed⟩ fun t ht => ?_
    obtain ⟨c, hc, rfl⟩ := List.mem_map.1
      (show t ∈ m.signature.types.map Prod.fst by simpa [Signature.types, Signature.map] using ht)
    exact ((hs m hmem).types c hc).written
  have hread : ∀ e ∈ entries, ∀ (n : Nat) (h : e.1.length < n),
      Yields spell allowed R (readMethod (⟨e.1, h⟩ : Below n)) e.2 := by
    intro e he n h
    obtain ⟨m, hmem, rfl⟩ := List.mem_map.1 he
    exact yields_method (hm m hmem) (hs m hmem) h
  have hy : Yields spell allowed R _ _ := yields_interface_text isBlank_space
    (nested_body fun p hp => (hpart p hp).2) (splitParts_body hpart) hread
  have htexts : entries.map Prod.fst = (ms.map (resign Prod.fst)).map (writeMethod spell) := by
    simp [entries]
  have hmethods : entries.map Prod.snd = ms.map (resign Prod.snd) := by simp [entries]
  rw [htexts, hmethods] at hy
  rwa [write_interface]

/-- What the members of a shape have to satisfy for its text to be read. -/
def MemberComponents (spell : String → String) (R : List Char → TypeLiteral → Prop) :
    Shape (TypeLiteral × TypeLiteral) → Prop
  | .func s => SignatureComponents spell R s
  | .struct fs => ∀ f ∈ fs, FieldComponents spell f
  | .interface ms =>
    ∀ m ∈ ms, isIdentifier m.name.toList = true ∧ SignatureComponents spell R m.signature
  | _ => True

/-- The text of a shape is read as the shape of what the texts of its components are read as. -/
theorem yields_members {z : Shape (TypeLiteral × TypeLiteral)} (hz : MemberComponents spell R z)
    (hr : ∀ c ∈ z.children, Component spell R c.1 c.2) :
    Yields spell allowed R (level (write spell (shape (z.mapChildren Prod.fst))))
      (shape (z.mapChildren Prod.snd)) := by
  cases z with
  | basic b =>
    have hall : ∀ b ∈ BasicType.all, b.name.toList ≠ [] ∧ b.name.toList.head? ≠ some '*' ∧
        b.name.toList ≠ "map".toList := by decide
    obtain ⟨hne, hstar, hmap⟩ := hall b (BasicType.mem_all b)
    have hhead : Head.of (b.name.toList ++ []) = .name :=
      Head.of_name (isOrdinary_basic b) hne hstar hmap (.inl rfl)
    have htext : write spell (shape (.basic b)) = b.name.toList := by rw [write]
    rw [List.append_nil] at hhead
    rw [Shape.mapChildren, Shape.mapChildren, htext, level, hhead]
    exact yields_basic b
  | array m c =>
    have hcr := hr c (List.mem_singleton_self c)
    have hhead : Head.of (write spell (shape (.array m c.1))) = .sequence :=
      Head.of_sequence (write.eq_def ..)
    rw [Shape.mapChildren, level, hhead]
    exact yields_array m hcr.standalone hcr.reads
  | slice c =>
    have hcr := hr c (List.mem_singleton_self c)
    have hhead : Head.of (write spell (shape (.slice c.1))) = .sequence :=
      Head.of_sequence (write.eq_def ..)
    rw [Shape.mapChildren, level, hhead]
    exact yields_slice hcr.standalone hcr.reads
  | map k c =>
    have hkr := hr k (by simp [Shape.children])
    have hcr := hr c (by simp [Shape.children])
    have htext : write spell (shape (.map k.1 c.1)) =
        "map".toList ++ '[' :: (k.1.write spell ++ ']' :: c.1.write spell) := by simp [write]
    obtain ⟨hle, hhead⟩ := Head.of_map htext
    rw [Shape.mapChildren, level, hhead]
    exact yields_map hkr.standalone hcr.standalone hkr.reads hcr.reads _
  | chan d c =>
    have hcr := hr c (List.mem_singleton_self c)
    rw [Shape.mapChildren]
    by_cases hd : d = .both ∧ c.1.direction? = some .recv
    · have htext : write spell (shape (.chan d c.1)) =
          d.lead.toList ++ '(' :: (c.1.write spell ++ [')']) := by simp [write, hd]
      obtain ⟨hlt, hhead⟩ := Head.of_chan d ('(' :: (c.1.write spell ++ [')']))
      rw [htext, level, hhead]
      exact yields_chan_round d hcr.standalone.nested.anywhere hcr.reads _
    · have htext : write spell (shape (.chan d c.1)) = d.lead.toList ++ c.1.write spell := by
        rw [write, if_neg hd]
      obtain ⟨hlt, hhead⟩ := Head.of_chan d (c.1.write spell)
      rw [htext, level, hhead]
      exact yields_chan d hcr.standalone hcr.reads _
  | func s =>
    obtain ⟨rest, hs⟩ : ∃ rest, writeSignature spell (s.map Prod.fst) = '(' :: rest :=
      ⟨_, by rw [Signature.map, writeSignature]; rfl⟩
    have htext : write spell (shape (.func (s.map Prod.fst))) = "func".toList ++ '(' :: rest := by
      rw [write, hs]
    obtain ⟨hle, hhead⟩ := Head.of_func htext
    rw [Shape.mapChildren, level, hhead]
    exact (yields_signature hz _ hs.symm).bind (Yields.done _)
  | struct fs => exact yields_struct hz fun f hf => hr _ (List.mem_map_of_mem hf)
  | interface ms => exact yields_interface (fun m hm => (hz m hm).1) fun m hm => (hz m hm).2
  | pointer c =>
    have hcr := hr c (List.mem_singleton_self c)
    have htext : write spell (shape (.pointer c.1)) = '*' :: c.1.write spell := by rw [write]
    rw [Shape.mapChildren, htext, level, Head.of_pointer]
    exact (Yields.sub hcr.reads _).bind (Yields.done _)

theorem yields_shape {z : Shape (TypeLiteral × TypeLiteral)}
    (hu : NodeWellFormed spell (shape (z.mapChildren Prod.fst)))
    (ht : NodeWellFormed spell (shape (z.mapChildren Prod.snd)))
    (hc : NodeClear spell (shape (z.mapChildren Prod.snd)))
    (hr : ∀ c ∈ z.children, Reads spell R c.1 c.2) :
    Yields spell allowed R (level (write spell (shape (z.mapChildren Prod.fst))))
      (shape (z.mapChildren Prod.snd)) := by
  refine yields_members ?_ fun c hm => (hr c hm).component
  cases z with
  | func s => exact SignatureReads.components ⟨hu, hc, hr⟩
  | struct fs =>
    intro f hf
    exact fieldComponents (ht _ (List.mem_map_of_mem hf)) (hr _ (List.mem_map_of_mem hf))
  | interface ms =>
    intro m hm
    have hmethod := hu _ (List.mem_map_of_mem hm)
    have hsig : SignatureReads spell R m.signature := by
      refine ⟨hmethod.2, hc _ (List.mem_map_of_mem hm), fun c hm' => ?_⟩
      exact hr c (List.mem_flatMap.2 ⟨m, hm, hm'⟩)
    exact ⟨hmethod.1, hsig.components⟩
  | _ => trivial

/-- Reading the text of a legible literal asks for the texts of literals inside it only, and yields
the literal. -/
theorem yields_level {t : TypeLiteral} (h : t.Legible spell allowed)
    (hR : ∀ text c, Printed spell allowed text c → R text c) :
    Yields spell allowed R (level (t.write spell)) t := by
  have hr : ∀ c ∈ t.children, Reads spell R c c := fun c hc => reads_self hR (h.inside c hc)
  cases t with
  | shape s =>
    obtain ⟨z, hfst, hsnd, hz⟩ := Shape.exists_zip (rfl : s.mapChildren id = s.mapChildren id)
    have hpairs : ∀ c ∈ z.children, Reads spell R c.1 c.2 := by
      intro c hc
      have he : c.1 = c.2 := hz c hc
      have hm : c.1 ∈ s.children := by
        rw [hfst, Shape.children_mapChildren]
        exact List.mem_map_of_mem hc
      exact he ▸ hr c.1 hm
    have hy : Yields spell allowed R (level (write spell (shape (z.mapChildren Prod.fst))))
        (shape (z.mapChildren Prod.snd)) :=
      yields_shape (hfst ▸ h.wellFormed.here) (hsnd ▸ h.wellFormed.here) (hsnd ▸ h.clear.here) hpairs
    rwa [← hfst, ← hsnd] at hy
  | named path name args =>
    obtain ⟨zs, hfst, hsnd, hz⟩ := exists_zip_list (rfl : args.map id = args.map id)
    have hpairs : ∀ c ∈ zs, Reads spell R c.1 c.2 := by
      intro c hc
      have he : c.1 = c.2 := hz c hc
      exact he ▸ hr c.1 (hfst ▸ List.mem_map_of_mem hc)
    have hy : Yields spell allowed R (level (write spell (named path name (zs.map Prod.fst))))
        (named path name (zs.map Prod.snd)) :=
      yields_named (hfst ▸ h.wellFormed.here) h.paths.here (fun c hc => (hpairs c hc).standalone)
        fun c hc => (hpairs c hc).reads
    rwa [← hfst, ← hsnd] at hy

end TypeIdentity.Literal
