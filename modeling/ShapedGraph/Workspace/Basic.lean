import ShapedGraph.Graph.Document
import ShapedGraph.Object.Access

/-! Workspaces, in which a graph is put together from named objects. A named object is a plain
value; a shared one has a handle, and all references to it carry that handle. Handles are given out
in ascending order. -/

namespace ShapedGraph

structure SharedObject where
  handle : Nat
  object : Object

structure Workspace where
  objects : Members Object
  shared : Members SharedObject
  graph : Graph
  /-- No handle from this one on has been given out. -/
  nextHandle : Nat

namespace Workspace

def empty (registry : Registry) : Workspace := ⟨[], [], .empty registry, 0⟩

def object? (w : Workspace) (name : String) : Option Object := Members.get? w.objects name

def shared? (w : Workspace) (name : String) : Option SharedObject := Members.get? w.shared name

def putObject (w : Workspace) (name : String) (o : Object) : Workspace :=
  { w with objects := Members.insert w.objects name o }

end Workspace

mutual

/-- Gives handles from `next` on to the references to objects that have none, so that copies of the
object can share what it refers to. -/
def Object.withHandles (o : Object) (next : Nat) : Object × Nat :=
  match o with
  | ⟨cls, id, observedType, slots, extensions⟩ =>
    let (slots, next) := handlesInSlots slots next
    let (extensions, next) := handlesInMembers extensions next
    (⟨cls, id, observedType, slots, extensions⟩, next)
termination_by structural o

def handlesInSlots (slots : List Slot) (next : Nat) : List Slot × Nat :=
  match slots with
  | [] => ([], next)
  | slot :: slots =>
    let (slot, next) := slot.withHandles next
    let (slots, next) := handlesInSlots slots next
    (slot :: slots, next)
termination_by structural slots

def Slot.withHandles (slot : Slot) (next : Nat) : Slot × Nat :=
  match slot with
  | .reference target =>
    let (target, next) := target.withHandles next
    (.reference target, next)
  | .references targets =>
    let (targets, next) := handlesInReferences targets next
    (.references targets, next)
  | slot => (slot, next)
termination_by structural slot

def Reference.withHandles (target : Reference) (next : Nat) : Reference × Nat :=
  match target with
  | .object none o =>
    let (o, after) := o.withHandles (next + 1)
    (.object next o, after)
  | target => (target, next)
termination_by structural target

def handlesInReferences (targets : List Reference) (next : Nat) : List Reference × Nat :=
  match targets with
  | [] => ([], next)
  | target :: targets =>
    let (target, next) := target.withHandles next
    let (targets, next) := handlesInReferences targets next
    (target :: targets, next)
termination_by structural targets

def handlesInMembers (members : List (String × List Extension)) (next : Nat) :
    List (String × List Extension) × Nat :=
  match members with
  | [] => ([], next)
  | (key, values) :: members =>
    let (values, next) := handlesInValues values next
    let (members, next) := handlesInMembers members next
    ((key, values) :: members, next)
termination_by structural members

def handlesInValues (values : List Extension) (next : Nat) : List Extension × Nat :=
  match values with
  | [] => ([], next)
  | value :: values =>
    let (value, next) := value.withHandles next
    let (values, next) := handlesInValues values next
    (value :: values, next)
termination_by structural values

def Extension.withHandles (value : Extension) (next : Nat) : Extension × Nat :=
  match value with
  | .reference target =>
    let (target, next) := target.withHandles next
    (.reference target, next)
  | .list values =>
    let (values, next) := handlesInValues values next
    (.list values, next)
  | value => (value, next)
termination_by structural value

end

end ShapedGraph
