import ShapedGraph.Proofs.Nesting
import ShapedGraph.Proofs.Parts

/-! Objects that are compared but for something that they say about themselves. A recasting puts
other classes and other type names in the place of theirs, at every depth; objects that come to the
same then agree in all the rest. -/

namespace ShapedGraph

/-- What comes in the place of the class of an object, and in that of the type name that a document
gave it. -/
structure Recasting where
  cls : NodeClass → NodeClass
  type : Option String → Option String

mutual

/-- The object with another class and another type name, and every object inside it likewise. -/
def Object.recast (r : Recasting) (o : Object) : Object :=
  match o with
  | ⟨cls, id, observedType, slots, extensions⟩ =>
    ⟨r.cls cls, id, r.type observedType, recastSlots r slots, recastExtensions r extensions⟩
termination_by structural o

def recastSlots (r : Recasting) (slots : List Slot) : List Slot :=
  match slots with
  | [] => []
  | slot :: slots => slot.recast r :: recastSlots r slots
termination_by structural slots

def Slot.recast (r : Recasting) (slot : Slot) : Slot :=
  match slot with
  | .scalar value => .scalar value
  | .list values => .list values
  | .reference target => .reference (target.recast r)
  | .references targets => .references (recastReferences r targets)
termination_by structural slot

def Reference.recast (r : Recasting) (target : Reference) : Reference :=
  match target with
  | .unset => .unset
  | .iri text => .iri text
  | .object handle o => .object handle (o.recast r)
termination_by structural target

def recastReferences (r : Recasting) (targets : List Reference) : List Reference :=
  match targets with
  | [] => []
  | target :: targets => target.recast r :: recastReferences r targets
termination_by structural targets

def recastExtensions (r : Recasting) (extensions : List (String × List Extension)) :
    List (String × List Extension) :=
  match extensions with
  | [] => []
  | (key, values) :: extensions => (key, recastValues r values) :: recastExtensions r extensions
termination_by structural extensions

def recastValues (r : Recasting) (values : List Extension) : List Extension :=
  match values with
  | [] => []
  | value :: values => value.recast r :: recastValues r values
termination_by structural values

def Extension.recast (r : Recasting) (value : Extension) : Extension :=
  match value with
  | .reference target => .reference (target.recast r)
  | .string value => .string value
  | .integer value => .integer value
  | .float value => .float value
  | .boolean value => .boolean value
  | .list values => .list (recastValues r values)
termination_by structural value

end

section

variable (r : Recasting)

theorem recastSlots_eq (slots : List Slot) : recastSlots r slots = slots.map (Slot.recast r) := by
  induction slots with
  | nil => rfl
  | cons slot slots ih => rw [recastSlots, ih, List.map_cons]

theorem recastReferences_eq (targets : List Reference) :
    recastReferences r targets = targets.map (Reference.recast r) := by
  induction targets with
  | nil => rfl
  | cons target targets ih => rw [recastReferences, ih, List.map_cons]

theorem recastValues_eq (values : List Extension) :
    recastValues r values = values.map (Extension.recast r) := by
  induction values with
  | nil => rfl
  | cons value values ih => rw [recastValues, ih, List.map_cons]

theorem recastSlots_set (slots : List Slot) (place : Nat) (slot : Slot) :
    recastSlots r (slots.set place slot) = (recastSlots r slots).set place (slot.recast r) := by
  rw [recastSlots_eq, recastSlots_eq, List.map_set]

/-- A table of undeclared members is recast entry by entry, so an entry may be put in before or
after. -/
theorem recastExtensions_insert (table : Members (List Extension)) (key : String)
    (values : List Extension) :
    recastExtensions r (Members.insert table key values) =
      Members.insert (recastExtensions r table) key (values.map (Extension.recast r)) := by
  induction table with
  | nil => rw [← recastValues_eq]; rfl
  | cons entry table ih =>
    obtain ⟨other, content⟩ := entry
    rw [recastExtensions, Members.insert, Members.insert]
    split
    · rw [recastExtensions, recastValues_eq]
    · split
      · rw [recastExtensions, recastExtensions, recastValues_eq]
      · rw [recastExtensions, ih]

@[simp] theorem Object.recast_cls (o : Object) : (o.recast r).cls = r.cls o.cls := by cases o; rfl

@[simp] theorem Object.recast_id (o : Object) : (o.recast r).id = o.id := by cases o; rfl

theorem Object.recast_slots (o : Object) : (o.recast r).slots = o.slots.map (Slot.recast r) := by
  cases o
  exact recastSlots_eq r _

@[simp] theorem Slot.recast_empty (p : Property) : (Slot.empty p).recast r = Slot.empty p := by
  unfold Slot.empty
  split <;> rfl

@[simp] theorem Slot.isSet_recast (slot : Slot) : (slot.recast r).isSet = slot.isSet := by
  cases slot with
  | scalar | list => rfl
  | reference target => cases target <;> rfl
  | references targets => cases targets <;> rfl

/-- The part with every object inside it recast. -/
def Part.recast : Part → Part
  | .nothing => .nothing
  | .id text => .id text
  | .slot place content => .slot place (content.recast r)
  | .extension key values => .extension key (values.map (Extension.recast r))

/-- One step: a part is put in before or after recasting. -/
theorem Object.recast_put (o : Object) (part : Part) :
    (o.put part).recast r = (o.recast r).put (part.recast r) := by
  obtain ⟨cls, id, observedType, slots, extensions⟩ := o
  cases part with
  | nothing | id => rfl
  | slot place slot => exact congrArg (Object.mk _ _ _ · _) (recastSlots_set r slots place slot)
  | extension key values =>
    exact congrArg (Object.mk _ _ _ _) (recastExtensions_insert r extensions key values)

end

end ShapedGraph
