import TypeIdentity.Proofs.Literal.Written

/-! # Lengths of texts

The text of a literal contains the texts of its components and more, so components print shorter.
A parameter that is written after an ellipsis makes no exception: the ellipsis is longer than the
brackets that it replaces.
-/
namespace TypeIdentity.TypeLiteral
variable {spell : String → String}

theorem length_le_intercalate {sep part : List Char} {parts : List (List Char)}
    (h : part ∈ parts) : part.length ≤ (List.intercalate sep parts).length := by
  induction parts with
  | nil => cases h
  | cons first rest ih =>
    cases rest with
    | nil =>
      obtain rfl := List.mem_singleton.1 h
      simp
    | cons second rest =>
      rw [List.intercalate_cons_cons, List.length_append, List.length_append]
      rcases List.mem_cons.1 h with rfl | h
      · omega
      · have := ih h
        omega

theorem length_le_writeList {sep : List Char} {t : TypeLiteral} {ts : List TypeLiteral}
    (h : t ∈ ts) : (t.write spell).length ≤ (writeList spell sep ts).length := by
  rw [writeList_eq]
  exact length_le_intercalate (List.mem_map_of_mem h)

theorem length_le_writeParams (variadic : Bool) {t : TypeLiteral} {ins : List TypeLiteral}
    (h : t ∈ ins) : (t.write spell).length ≤ (writeParams spell variadic ins).length := by
  induction ins with
  | nil => cases h
  | cons a ins ih =>
    cases ins with
    | nil =>
      obtain rfl := List.mem_singleton.1 h
      rcases t with ⟨_ | _ | e | _ | _ | _ | _ | _ | _⟩ | _
      case shape.slice => cases variadic <;> simp [writeParams, write]
      all_goals simp [writeParams]
    | cons b ins =>
      rw [writeParams_cons_cons, List.length_append, List.length_append]
      rcases List.mem_cons.1 h with rfl | h
      · omega
      · have := ih h
        omega

theorem length_le_writeResults {t : TypeLiteral} {outs : List TypeLiteral} (h : t ∈ outs) :
    (t.write spell).length ≤ (writeResults spell outs).length := by
  match outs with
  | [a] =>
    obtain rfl := List.mem_singleton.1 h
    simp [writeResults]
  | a :: b :: rest =>
    have : (t.write spell).length ≤ (writeList spell ", ".toList (a :: b :: rest)).length :=
      length_le_writeList h
    simp only [writeResults, List.length_append]
    omega

theorem length_lt_writeSignature {t : TypeLiteral} {s : Signature TypeLiteral} (h : t ∈ s.types) :
    (t.write spell).length < (writeSignature spell s).length := by
  obtain ⟨ins, outs, variadic⟩ := s
  simp only [writeSignature, List.length_cons, List.length_append]
  rcases List.mem_append.1 h with h | h
  · have : (t.write spell).length ≤ (writeParams spell variadic ins).length :=
      length_le_writeParams variadic h
    omega
  · have : (t.write spell).length ≤ (writeResults spell outs).length := length_le_writeResults h
    omega

theorem length_le_writeField (f : Field TypeLiteral) :
    (f.type.write spell).length ≤ (writeField spell f).length := by
  obtain ⟨name, type, tag, embedded⟩ := f
  simp only [writeField, List.length_append]
  omega

theorem length_lt_writeMethod {t : TypeLiteral} {m : Method TypeLiteral}
    (h : t ∈ m.signature.types) : (t.write spell).length < (writeMethod spell m).length := by
  obtain ⟨name, signature⟩ := m
  have : (t.write spell).length < (writeSignature spell signature).length :=
    length_lt_writeSignature h
  simp only [writeMethod, List.length_append]
  omega

theorem length_le_body {part : List Char} {parts : List (List Char)} (h : part ∈ parts) :
    part.length ≤ (body parts).length := by
  have : part.length ≤ (List.intercalate [';', ' '] parts).length := length_le_intercalate h
  rw [body, if_neg (List.ne_nil_of_mem h)]
  simp only [List.length_cons, List.length_append]
  omega

/-- The text of a component is shorter. -/
theorem length_write_lt {t c : TypeLiteral} (h : c ∈ t.children) :
    (c.write spell).length < (t.write spell).length := by
  cases t with
  | named path name args =>
    match args, h with
    | a :: rest, h =>
      have : (c.write spell).length ≤ (writeList spell ",".toList (a :: rest)).length :=
        length_le_writeList h
      simp only [write, List.length_append, List.length_cons]
      omega
  | shape s =>
    cases s with
    | basic b => cases h
    | array n e | slice e | pointer e =>
      obtain rfl := List.mem_singleton.1 h
      simp only [write, List.length_append, List.length_cons]
      omega
    | map k e =>
      simp only [write, List.length_append, List.length_cons]
      rcases List.mem_pair.1 h with rfl | rfl <;> omega
    | chan d e =>
      obtain rfl := List.mem_singleton.1 h
      have hlead : 0 < d.lead.toList.length := by cases d <;> decide
      simp only [write]
      split <;> simp only [List.length_append, List.length_cons] <;> omega
    | func s =>
      have : (c.write spell).length < (writeSignature spell s).length := length_lt_writeSignature h
      simp only [write, List.length_append]
      omega
    | struct fs =>
      obtain ⟨f, hf, rfl⟩ := List.mem_map.1 h
      have : (f.type.write spell).length ≤ (writeField spell f).length := length_le_writeField f
      have : (writeField spell f).length ≤ (body (fs.map (writeField spell))).length :=
        length_le_body (List.mem_map_of_mem hf)
      simp only [write_struct, List.length_append, List.length_cons]
      omega
    | interface ms =>
      obtain ⟨m, hm, hc⟩ := List.mem_flatMap.1 h
      have : (c.write spell).length < (writeMethod spell m).length := length_lt_writeMethod hc
      have : (writeMethod spell m).length ≤ (body (ms.map (writeMethod spell))).length :=
        length_le_body (List.mem_map_of_mem hm)
      simp only [write_interface, List.length_append, List.length_cons]
      omega

theorem length_canonical_lt {t c : TypeLiteral} (h : c ∈ t.children) :
    c.canonical.length < t.canonical.length := by
  simp only [canonical, render_eq, String.length_ofList]
  exact length_write_lt h

end TypeIdentity.TypeLiteral
