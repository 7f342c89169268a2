import ShapedGraph.Proofs.Members
import ShapedGraph.Proofs.Nesting

/-! Objects without what is never written: the undeclared members that hold no value. -/

namespace ShapedGraph

mutual

/-- The object without the undeclared members that hold no value, and every object inside it
likewise. -/
def Object.pruned (o : Object) : Object :=
  match o with
  | ⟨cls, id, observedType, slots, extensions⟩ =>
    ⟨cls, id, observedType, prunedSlots slots, prunedExtensions extensions⟩
termination_by structural o

def prunedSlots (slots : List Slot) : List Slot :=
  match slots with
  | [] => []
  | slot :: slots => slot.pruned :: prunedSlots slots
termination_by structural slots

def Slot.pruned (slot : Slot) : Slot :=
  match slot with
  | .scalar value => .scalar value
  | .list values => .list values
  | .reference target => .reference target.pruned
  | .references targets => .references (prunedReferences targets)
termination_by structural slot

def Reference.pruned (target : Reference) : Reference :=
  match target with
  | .unset => .unset
  | .iri text => .iri text
  | .object handle o => .object handle o.pruned
termination_by structural target

def prunedReferences (targets : List Reference) : List Reference :=
  match targets with
  | [] => []
  | target :: targets => target.pruned :: prunedReferences targets
termination_by structural targets

def prunedExtensions (extensions : List (String × List Extension)) :
    List (String × List Extension) :=
  match extensions with
  | [] => []
  | (key, values) :: extensions =>
    if values.isEmpty then prunedExtensions extensions
    else (key, prunedValues values) :: prunedExtensions extensions
termination_by structural extensions

def prunedValues (values : List Extension) : List Extension :=
  match values with
  | [] => []
  | value :: values => value.pruned :: prunedValues values
termination_by structural values

def Extension.pruned (value : Extension) : Extension :=
  match value with
  | .reference target => .reference target.pruned
  | .string value => .string value
  | .integer value => .integer value
  | .float value => .float value
  | .boolean value => .boolean value
  | .list values => .list (prunedValues values)
termination_by structural value

end

theorem prunedSlots_eq (slots : List Slot) : prunedSlots slots = slots.map Slot.pruned := by
  induction slots with
  | nil => rfl
  | cons slot slots ih => rw [prunedSlots, ih, List.map_cons]

theorem prunedReferences_eq (targets : List Reference) :
    prunedReferences targets = targets.map Reference.pruned := by
  induction targets with
  | nil => rfl
  | cons target targets ih => rw [prunedReferences, ih, List.map_cons]

theorem prunedValues_eq (values : List Extension) :
    prunedValues values = values.map Extension.pruned := by
  induction values with
  | nil => rfl
  | cons value values ih => rw [prunedValues, ih, List.map_cons]

theorem mem_prunedExtensions {extensions : List (String × List Extension)} {key : String}
    {values : List Extension} : (key, values) ∈ prunedExtensions extensions ↔
      ∃ old, (key, old) ∈ extensions ∧ old ≠ [] ∧ old.map Extension.pruned = values := by
  induction extensions with
  | nil => simp [prunedExtensions]
  | cons extension extensions ih =>
    obtain ⟨key', values'⟩ := extension
    rw [prunedExtensions]
    split
    · rename_i empty
      have empty := List.isEmpty_iff.mp empty
      rw [ih]
      constructor
      · rintro ⟨old, there, rest⟩
        exact ⟨old, List.mem_cons_of_mem _ there, rest⟩
      · rintro ⟨old, there, nonempty, same⟩
        rcases List.mem_cons.mp there with here | there
        · cases here
          exact absurd empty nonempty
        · exact ⟨old, there, nonempty, same⟩
    · rename_i nonempty
      have nonempty : values' ≠ [] := fun empty => nonempty (List.isEmpty_iff.mpr empty)
      rw [List.mem_cons, ih, prunedValues_eq]
      constructor
      · rintro (here | ⟨old, there, rest⟩)
        · cases here
          exact ⟨values', List.mem_cons_self, nonempty, rfl⟩
        · exact ⟨old, List.mem_cons_of_mem _ there, rest⟩
      · rintro ⟨old, there, rest⟩
        rcases List.mem_cons.mp there with here | there
        · cases here
          exact .inl (by rw [rest.2])
        · exact .inr ⟨old, there, rest⟩

theorem sorted_prunedExtensions {extensions : List (String × List Extension)}
    (sorted : Members.Sorted extensions) : Members.Sorted (prunedExtensions extensions) := by
  induction extensions with
  | nil => exact sorted
  | cons extension extensions ih =>
    obtain ⟨key, values⟩ := extension
    obtain ⟨first, sorted⟩ := List.pairwise_cons.mp sorted
    rw [prunedExtensions]
    split
    · exact ih sorted
    · refine List.pairwise_cons.mpr ⟨fun other h => ?_, ih sorted⟩
      obtain ⟨old, there, -⟩ := mem_prunedExtensions.mp h
      exact first (other.1, old) there

namespace Object

@[simp] theorem pruned_cls (o : Object) : o.pruned.cls = o.cls := by cases o; rfl

@[simp] theorem pruned_id (o : Object) : o.pruned.id = o.id := by cases o; rfl

@[simp] theorem pruned_observedType (o : Object) : o.pruned.observedType = o.observedType := by
  cases o; rfl

theorem pruned_slots (o : Object) : o.pruned.slots = o.slots.map Slot.pruned := by
  cases o
  exact prunedSlots_eq _

theorem pruned_extensions (o : Object) : o.pruned.extensions = prunedExtensions o.extensions := by
  cases o; rfl

end Object

theorem Slot.pruned_of_isSet_eq_false {slot : Slot} (unset : slot.isSet = false) :
    slot.pruned = slot.cleared := by
  cases slot with
  | scalar value =>
    cases value with
    | none => rfl
    | some value => cases unset
  | list values =>
    cases values with
    | nil => rfl
    | cons value values => cases unset
  | reference target =>
    cases target with
    | unset => rfl
    | iri | object => cases unset
  | references targets =>
    cases targets with
    | nil => rfl
    | cons target targets => cases unset

end ShapedGraph
