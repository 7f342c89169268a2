import ShapedGraph.Object.Encode
import ShapedGraph.Proofs.Members
import ShapedGraph.Proofs.Nesting

/-! The members that an object is written as: each of them is its type, its identifier, a slot that
is set or an undeclared member that has values, and the key of each of these is written. -/

namespace ShapedGraph

/-- A member that an object may be written with. -/
inductive Object.Writes (o : Object) : String × Json → Prop where
  | type : Writes o ("@type", .string o.typeIri)
  | id {text : String} (there : o.id = some text) : Writes o (o.cls.idKey, .string text)
  | slot {p : Property} {slot : Slot} (seen : Seen) (there : (p, slot) ∈ o.properties)
    (set : slot.isSet = true) : Writes o (p.key, (slot.encode p seen).1)
  | extension {key : String} {values : List Extension} (seen : Seen)
    (there : (key, values) ∈ o.extensions) (nonempty : values ≠ []) :
    Writes o (key, .list (encodeExtensionValues values seen).1)

theorem encodeSlots_nil_left (slots : List Slot) (members : Members Json) (seen : Seen) :
    encodeSlots [] slots members seen = (members, seen) := by
  cases slots <;> rfl

theorem encodeSlots_nil_right (layout : List Property) (members : Members Json) (seen : Seen) :
    encodeSlots layout [] members seen = (members, seen) := by
  cases layout <;> rfl

theorem mem_encodeSlots {layout : List Property} {slots : List Slot} {members : Members Json}
    {seen : Seen} {m : String × Json} (h : m ∈ (encodeSlots layout slots members seen).1) :
    m ∈ members ∨ ∃ p slot seen', (p, slot) ∈ layout.zip slots ∧ slot.isSet = true ∧
      m = (p.key, (slot.encode p seen').1) := by
  induction slots generalizing layout members seen with
  | nil =>
    rw [encodeSlots_nil_right] at h
    exact .inl h
  | cons slot slots ih =>
    cases layout with
    | nil =>
      rw [encodeSlots_nil_left] at h
      exact .inl h
    | cons p layout =>
      rw [encodeSlots] at h
      split at h
      · rename_i set
        rcases ih h with h | ⟨q, slot', seen', there, set', same⟩
        · rcases Members.mem_insert h with same | h
          · exact .inr ⟨p, slot, seen, List.mem_cons_self, set, same⟩
          · exact .inl h
        · exact .inr ⟨q, slot', seen', List.mem_cons_of_mem _ there, set', same⟩
      · rcases ih h with h | ⟨q, slot', seen', there, set', same⟩
        · exact .inl h
        · exact .inr ⟨q, slot', seen', List.mem_cons_of_mem _ there, set', same⟩

theorem hasKey_encodeSlots {layout : List Property} {slots : List Slot} {members : Members Json}
    {seen : Seen} {key : String} (h : members.HasKey key ∨
      ∃ p slot, (p, slot) ∈ layout.zip slots ∧ slot.isSet = true ∧ p.key = key) :
    Members.HasKey (encodeSlots layout slots members seen).1 key := by
  induction slots generalizing layout members seen with
  | nil =>
    rw [encodeSlots_nil_right]
    refine h.resolve_right fun ⟨_, _, there, _⟩ => ?_
    simp at there
  | cons slot slots ih =>
    cases layout with
    | nil =>
      rw [encodeSlots_nil_left]
      exact h.resolve_right fun ⟨_, _, there, _⟩ => nomatch there
    | cons p layout =>
      rw [encodeSlots]
      split
      · rename_i set
        refine ih ?_
        rcases h with h | ⟨q, slot', there, set', same⟩
        · exact .inl (h.insert _ _)
        · rcases List.mem_cons.mp there with here | there
          · cases here
            exact .inl (same ▸ Members.hasKey_insert_self _ _ _)
          · exact .inr ⟨q, slot', there, set', same⟩
      · rename_i unset
        refine ih (h.imp_right ?_)
        rintro ⟨q, slot', there, set', same⟩
        rcases List.mem_cons.mp there with here | there
        · cases here
          exact absurd set' unset
        · exact ⟨q, slot', there, set', same⟩

theorem mem_encodeExtensions {extensions : List (String × List Extension)} {members : Members Json}
    {seen : Seen} {m : String × Json} (h : m ∈ (encodeExtensions extensions members seen).1) :
    m ∈ members ∨ ∃ key values seen', (key, values) ∈ extensions ∧ values ≠ [] ∧
      m = (key, .list (encodeExtensionValues values seen').1) := by
  induction extensions generalizing members seen with
  | nil => exact .inl h
  | cons extension extensions ih =>
    obtain ⟨key, values⟩ := extension
    rw [encodeExtensions] at h
    split at h
    · rcases ih h with h | ⟨key', values', seen', there, nonempty, same⟩
      · exact .inl h
      · exact .inr ⟨key', values', seen', List.mem_cons_of_mem _ there, nonempty, same⟩
    · rename_i nonempty
      rcases ih h with h | ⟨key', values', seen', there, nonempty, same⟩
      · rcases Members.mem_insert h with same | h
        · exact .inr ⟨key, values, seen, List.mem_cons_self, by simpa using nonempty, same⟩
        · exact .inl h
      · exact .inr ⟨key', values', seen', List.mem_cons_of_mem _ there, nonempty, same⟩

theorem hasKey_encodeExtensions {extensions : List (String × List Extension)}
    {members : Members Json} {seen : Seen} {key : String} (h : members.HasKey key ∨
      ∃ values, (key, values) ∈ extensions ∧ values ≠ []) :
    Members.HasKey (encodeExtensions extensions members seen).1 key := by
  induction extensions generalizing members seen with
  | nil => exact h.resolve_right fun ⟨_, there, _⟩ => nomatch there
  | cons extension extensions ih =>
    obtain ⟨key', values'⟩ := extension
    rw [encodeExtensions]
    split
    · rename_i empty
      refine ih (h.imp_right ?_)
      rintro ⟨values, there, nonempty⟩
      rcases List.mem_cons.mp there with here | there
      · cases here
        exact absurd (List.isEmpty_iff.mp empty) nonempty
      · exact ⟨values, there, nonempty⟩
    · refine ih ?_
      rcases h with h | ⟨values, there, nonempty⟩
      · exact .inl (h.insert _ _)
      · rcases List.mem_cons.mp there with here | there
        · cases here
          exact .inl (Members.hasKey_insert_self _ _ _)
        · exact .inr ⟨values, there, nonempty⟩

theorem sorted_encodeSlots {members : Members Json} (sorted : members.Sorted)
    (layout : List Property) (slots : List Slot) (seen : Seen) :
    Members.Sorted (encodeSlots layout slots members seen).1 := by
  induction slots generalizing layout members seen with
  | nil =>
    rw [encodeSlots_nil_right]
    exact sorted
  | cons slot slots ih =>
    cases layout with
    | nil => exact sorted
    | cons p layout =>
      rw [encodeSlots]
      split
      · exact ih (Members.sorted_insert sorted _ _) layout _
      · exact ih sorted layout seen

theorem sorted_encodeExtensions {members : Members Json} (sorted : members.Sorted)
    (extensions : List (String × List Extension)) (seen : Seen) :
    Members.Sorted (encodeExtensions extensions members seen).1 := by
  induction extensions generalizing members seen with
  | nil => exact sorted
  | cons extension extensions ih =>
    obtain ⟨key, values⟩ := extension
    rw [encodeExtensions]
    split
    · exact ih sorted seen
    · exact ih (Members.sorted_insert sorted _ _) _

namespace Object

variable {o : Object} {seen : Seen}

theorem sorted_encode (o : Object) (seen : Seen) : Members.Sorted (o.encode seen).1 := by
  obtain ⟨cls, id, observedType, slots, extensions⟩ := o
  unfold encode
  refine sorted_encodeExtensions (sorted_encodeSlots ?_ _ _ _) _ _
  have typed := Members.sorted_insert Members.sorted_nil "@type"
    (Json.string (observedType.getD cls.typeName))
  cases id with
  | none => exact typed
  | some text => exact Members.sorted_insert typed _ _

/-- Every member that an object is written as is one of these. -/
theorem writes_of_mem_encode {m : String × Json} (h : m ∈ (o.encode seen).1) : o.Writes m := by
  obtain ⟨cls, id, observedType, slots, extensions⟩ := o
  unfold encode at h
  simp only at h
  rcases mem_encodeExtensions h with h | ⟨key, values, seen', there, nonempty, rfl⟩
  · rcases mem_encodeSlots h with h | ⟨p, slot, seen', there, set, rfl⟩
    · cases id with
      | none =>
        rw [List.mem_singleton.mp h]
        exact .type
      | some text =>
        rcases Members.mem_insert h with rfl | h
        · exact .id rfl
        · rw [List.mem_singleton.mp h]
          exact .type
    · exact .slot seen' there set
  · exact .extension seen' there nonempty

/-- Every member that an object may be written with has its key among those that are written. -/
theorem hasKey_encode {m : String × Json} (h : o.Writes m) (seen : Seen) :
    Members.HasKey (o.encode seen).1 m.1 := by
  obtain ⟨cls, id, observedType, slots, extensions⟩ := o
  unfold encode
  simp only
  refine hasKey_encodeExtensions ?_
  cases h with
  | type =>
    refine .inl (hasKey_encodeSlots (.inl ?_))
    have typed :=
      Members.hasKey_insert_self [] "@type" (Json.string (observedType.getD cls.typeName))
    cases id with
    | none => exact typed
    | some text => exact typed.insert _ _
  | id there =>
    refine .inl (hasKey_encodeSlots (.inl ?_))
    cases there
    exact Members.hasKey_insert_self _ _ _
  | slot _ there set => exact .inl (hasKey_encodeSlots (.inr ⟨_, _, there, set, rfl⟩))
  | extension _ there nonempty => exact .inr ⟨_, there, nonempty⟩

end Object

end ShapedGraph
