import ShapedGraph.Object.Basic
import ShapedGraph.Proofs.Registry

/-! The objects inside an object: those that its slots and the values of its undeclared members
hold directly, the class that the place of each asks for, and what holds of all of them at every
depth. -/

namespace ShapedGraph

def Reference.objects : Reference → List Object
  | .object _ o => [o]
  | _ => []

/-- The references in a slot, set or not. -/
def Slot.targets : Slot → List Reference
  | .reference target => [target]
  | .references targets => targets
  | _ => []

/-- The objects that a slot holds directly. -/
def Slot.objects : Slot → List Object
  | .reference target => target.objects
  | .references targets => targets.flatMap Reference.objects
  | _ => []

mutual

/-- The objects that a value of an undeclared member holds directly, in its lists too. -/
def Extension.objects : Extension → List Object
  | .reference target => target.objects
  | .list values => extensionObjects values
  | _ => []
termination_by structural value => value

def extensionObjects : List Extension → List Object
  | [] => []
  | value :: values => value.objects ++ extensionObjects values
termination_by structural values => values

end

theorem mem_extensionObjects {values : List Extension} {x : Object} :
    x ∈ extensionObjects values ↔ ∃ value ∈ values, x ∈ value.objects := by
  induction values with
  | nil => simp [extensionObjects]
  | cons value values ih => simp [extensionObjects, ih]

theorem Slot.mem_objects {slot : Slot} {x : Object} :
    x ∈ slot.objects ↔ ∃ reference ∈ slot.targets, x ∈ reference.objects := by
  cases slot <;> simp [objects, targets]

theorem Reference.mem_objects {target : Reference} {x : Object} :
    x ∈ target.objects ↔ ∃ handle, target = .object handle x := by
  cases target <;> simp [objects, eq_comm]

/-- Induction over the lists in a value; references are not entered. -/
@[elab_as_elim]
theorem Extension.induct {motive : Extension → Prop}
    (reference : ∀ target, motive (.reference target)) (string : ∀ s, motive (.string s))
    (integer : ∀ n, motive (.integer n)) (float : ∀ x, motive (.float x))
    (boolean : ∀ b, motive (.boolean b))
    (list : ∀ values, (∀ value ∈ values, motive value) → motive (.list values))
    (value : Extension) : motive value :=
  @Extension.rec (fun _ => True) (fun _ => True) (fun _ => True) motive (fun _ => True)
    (fun _ => True) (fun _ => True) (fun values => ∀ value ∈ values, motive value) (fun _ => True)
    (fun _ _ _ _ _ _ _ => trivial) (fun _ => trivial) (fun _ => trivial) (fun _ _ => trivial)
    (fun _ _ => trivial) trivial (fun _ => trivial) (fun _ _ _ => trivial)
    (fun target _ => reference target) string integer float boolean list
    trivial (fun _ _ _ _ => trivial) trivial (fun _ _ _ _ => trivial) trivial
    (fun _ _ _ _ => trivial) (fun _ h => (nomatch h))
    (fun _ _ head tail _ h => (List.mem_cons.mp h).elim (fun same => same ▸ head) (tail _))
    (fun _ _ _ => trivial) value

namespace Object

variable {registry : Registry}

/-- An object holds another directly, at a place that asks for a class or for none. -/
inductive Holds (registry : Registry) (o : Object) : Option NodeClass → Object → Prop where
  | inSlot {p : Property} {slot : Slot} {x : Object} (there : (p, slot) ∈ o.properties)
    (inside : x ∈ slot.objects) : Holds registry o (registry.targetOf p) x
  | inExtension {key : String} {values : List Extension} {value : Extension} {x : Object}
    (there : (key, values) ∈ o.extensions) (among : value ∈ values) (inside : x ∈ value.objects) :
    Holds registry o none x

/-- An object is inside another at some depth, or is that object itself, at a place that asks for a
class or for none. -/
inductive Nested (registry : Registry) (target : Option NodeClass) (o : Object) :
    Option NodeClass → Object → Prop where
  | here : Nested registry target o target o
  | inside {outer inner : Option NodeClass} {x y : Object}
    (nested : Nested registry target o outer x) (holds : x.Holds registry inner y) :
    Nested registry target o inner y

/-- Something holds of an object and of every object inside it, each at its place. -/
inductive Everywhere (registry : Registry) (P : Option NodeClass → Object → Prop) :
    Option NodeClass → Object → Prop where
  | intro {target : Option NodeClass} {o : Object} (here : P target o)
    (inside : ∀ inner x, o.Holds registry inner x → Everywhere registry P inner x) :
    Everywhere registry P target o

variable {P : Option NodeClass → Object → Prop} {target inner : Option NodeClass} {o x : Object}

theorem Everywhere.here (h : Everywhere registry P target o) : P target o := by
  cases h
  assumption

theorem Everywhere.inside (h : Everywhere registry P target o) (holds : o.Holds registry inner x) :
    Everywhere registry P inner x := by
  cases h with
  | intro _ inside => exact inside inner x holds

theorem Everywhere.nested (h : Everywhere registry P target o)
    (nested : Nested registry target o inner x) : Everywhere registry P inner x := by
  induction nested with
  | here => exact h
  | inside _ holds ih => exact ih.inside holds

end Object

end ShapedGraph
