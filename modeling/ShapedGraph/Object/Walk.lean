import ShapedGraph.Object.Basic

/-! The values of an object in the order of a walk: the identifier, then the content of each
property in layout order. Members that are not declared are not visited. -/

namespace ShapedGraph

inductive Visited where
  | scalar (value : Scalar)
  | reference (target : Reference)

/-- A value and the path where a walk visits it. -/
abbrev Visit := Located Visited

namespace Slot

/-- References from `position` on, each at its own position. -/
def visitReferences (path : Path) : Nat → List Reference → List Visit
  | _, [] => []
  | position, target :: targets =>
    ⟨path.item position, .reference target⟩ :: visitReferences path (position + 1) targets

/-- The content of a property of the object at `owner`. A single reference that is not set is not
visited, but one in a list is. -/
def visits (p : Property) (owner : Path) : Slot → List Visit
  | .scalar value => ((p.field value).walk owner).map (·.map .scalar)
  | .list values => ((p.listField values).walk owner).map (·.map .scalar)
  | .reference target =>
    if target.isSet then [⟨owner.member p.name, .reference target⟩] else []
  | .references targets => visitReferences (owner.member p.name) 0 targets

end Slot

namespace Object

/-- The identifier of an object, if it has one. -/
def idVisits (id : Option String) (path : Path) : List Visit :=
  (id.map fun id => ⟨path.member "id", .scalar (.string id)⟩).toList

/-- The values of an object, without entering the objects it refers to. -/
def visits (o : Object) (path : Path) : List Visit :=
  idVisits o.id path ++ o.properties.flatMap fun (p, slot) => slot.visits p path

end Object

end ShapedGraph
